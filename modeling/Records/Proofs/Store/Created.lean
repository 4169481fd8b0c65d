import Records.Proofs.Number.Numeral
import Records.Proofs.Store.Insertion

/-!
# Created rows

A row is stored with its key as it was written, and looked up by that key as it was read.  The two
meet when their texts are the same, as they always are for textual keys and for numbers; then the
new row, unless it is born into the trash, is found by its key, and otherwise nothing is
(`created_row`, `created_not_found_upper_case`).
-/

set_option autoImplicit false

namespace Records

namespace Service

variable {service : Service} {value id : Json}

/-- A key that is given as a value is a text, or a number that stands for itself or its numeral. -/
theorem exists_of_keyOfValue (h : service.keyOfValue value = .ok id) :
    (∃ s, value = .str s ∧ service.readKey s = .ok id) ∨
      ∃ n, value = .int n ∧ (id = .int n ∨ id = .str (Numeral.decimal n)) := by
  cases value with
  | str s => exact .inl ⟨s, rfl, h⟩
  | int n =>
    refine .inr ⟨n, rfl, ?_⟩
    rw [keyOfValue] at h
    · split at h
      · cases h
      · rename_i m hm
        obtain rfl : n = m := by
          rw [Json.int64?] at hm
          split at hm <;> simp_all
        split at h
        · exact .inl (Except.ok.inj h).symm
        · exact .inl (Except.ok.inj h).symm
        · exact .inr (Except.ok.inj h).symm
        · cases h
    · exact fun _ h => nomatch h
  | _ => cases h

/-- No text is read as a null key. -/
theorem isNull_of_readKey {raw : String} (h : service.readKey raw = .ok id) :
    id.isNull = false := by
  rw [readKey] at h
  split at h
  · split at h <;> cases h
    rfl
  · split at h <;> cases h
    rfl
  · split at h <;> cases h
    rfl
  · cases h
    rfl

/-- Neither a value that is a key nor that key is null. -/
theorem isNull_of_keyOfValue (h : service.keyOfValue value = .ok id) :
    value.isNull = false ∧ id.isNull = false := by
  rcases exists_of_keyOfValue h with ⟨s, rfl, hread⟩ | ⟨n, rfl, rfl | rfl⟩
  · exact ⟨rfl, isNull_of_readKey hread⟩
  · exact ⟨rfl, rfl⟩
  · exact ⟨rfl, rfl⟩

/-- A key agrees with what is read from it when the two have the same text. -/
theorem agrees_iff_of_keyOfValue (h : service.keyOfValue value = .ok id) :
    value.agrees id = true ↔ value.text? = id.text? := by
  rcases exists_of_keyOfValue h with ⟨s, rfl, _⟩ | ⟨n, rfl, rfl | rfl⟩
  · have hagrees : (Json.str s).agrees id = decide (some s = id.text?) := rfl
    rw [hagrees, decide_eq_true_iff]
    rfl
  · simp [Json.agrees, Json.double?]
  · simp [Json.agrees, Json.double?, Json.text?]

/-- Reading leaves the text of numbers and of textual keys as it is. -/
theorem text?_of_keyOfValue (h : service.keyOfValue value = .ok id)
    (hplain : service.resource.keyType = .text ∨ value.int64?.isSome = true) :
    value.text? = id.text? := by
  rcases exists_of_keyOfValue h with ⟨s, rfl, hread⟩ | ⟨n, rfl, rfl | rfl⟩
  · rcases hplain with htext | hnumber
    · rw [readKey, htext] at hread
      cases hread
      rfl
    · cases hnumber
  · rfl
  · rfl

/-- A row that is created under a key is stored last.  It is found by the key that is read from its
own, and operations addressed by that key reach it alone, when the two have the same text and the
row is not born into the trash; otherwise nothing is found, as before.  Numbers and textual keys
keep their text when they are read. -/
theorem created_row {model : Model} {flavor : Flavor} {name : String}
    (opened : open? model flavor name = .ok service)
    (keyed : service.resource.hasColumn service.resource.primaryKey = true) {data : Fields}
    (given : Fields.get? data service.resource.primaryKey = some value)
    (read : service.keyOfValue value = .ok id)
    (unmarked : ∀ mark ∈ service.resource.softDeleteColumn, Row.present? data mark = none)
    {store : Store} (missing : service.rowOfKey store id [] [] = .error (.notFound .record))
    (supply : Supply) :
    ∃ row,
      service.create supply store data =
        (row, store.setRows service.resource.name (store.rows service.resource.name ++ [row])) ∧
      (service.resource.keyType = .text ∨ value.int64?.isSome = true → value.text? = id.text?) ∧
      (value.text? = id.text? →
        (∀ mark ∈ service.resource.softDeleteColumn, ¬ service.resource.Stamps mark) →
        service.ReachesLast (service.create supply store data).2 id
          (store.rows service.resource.name) row) ∧
      ((value.text? ≠ id.text? ∨
          ∃ mark ∈ service.resource.softDeleteColumn, service.resource.Stamps mark) →
        service.rowOfKey (service.create supply store data).2 id [] [] =
          .error (.notFound .record)) := by
  obtain ⟨_, _, hresource⟩ := open?_eq_ok opened
  obtain ⟨hvalue, hid⟩ := isNull_of_keyOfValue read
  let rows := store.rows service.resource.name
  let row := Store.newRow supply service.resource rows data
  have hcreated : (service.create supply store data).2.rows service.resource.name =
      rows ++ [row] := Store.rows_setRows _ _ _
  have hpresent : Row.present? data service.resource.primaryKey = some value :=
    Json.present?_eq_some_iff.mpr ⟨given, hvalue⟩
  have hkey : Fields.get? row service.resource.primaryKey = some value := by
    refine (Json.present?_eq_some_iff.mp (?_ : Row.present? row _ = _)).1
    rw [Store.present?_newRow, if_pos keyed, hpresent, Option.some_or, Option.some_or]
  have hlive : Row.isLive service.resource row = true ↔
      ∀ mark ∈ service.resource.softDeleteColumn, ¬ service.resource.Stamps mark :=
    Store.isLive_newRow_iff (by simp [hpresent]) unmarked
  -- the key as read addresses the row when it is live and the key as stored has the same text
  have hrow : Store.isAddressed service.resource id row = true ↔
      (∀ mark ∈ service.resource.softDeleteColumn, ¬ service.resource.Stamps mark) ∧
        value.text? = id.text? := by
    rw [Store.isAddressed, Bool.and_eq_true, hlive, Row.hasKey, hkey]
    exact and_congr_right fun _ => agrees_iff_of_keyOfValue read
  -- nothing was found before, so no older row can come in between
  have hothers : ∀ other ∈ rows, Store.isAddressed service.resource id other = false := by
    rw [rowOfKey_eq_find? store hresource hid rfl] at missing
    split at missing
    · cases missing
    · rename_i hnone
      simpa using hnone
  refine ⟨row, rfl, text?_of_keyOfValue read, ?_, ?_⟩
  · intro halike hunstamped
    exact reachesLast_of_forall hresource hid hcreated hothers (hrow.mpr ⟨hunstamped, halike⟩)
  · intro hmissed
    have hnone : (rows ++ [row]).find? (Store.isAddressed service.resource id) = none := by
      rw [List.find?_eq_none, List.forall_mem_append, List.forall_mem_singleton, hrow]
      refine ⟨by simpa using hothers, ?_⟩
      rintro ⟨hunstamped, halike⟩
      rcases hmissed with hdiffer | ⟨mark, hmark, hstamps⟩
      · exact hdiffer halike
      · exact hunstamped mark hmark hstamps
    rw [rowOfKey_eq_find? _ hresource hid rfl, hcreated, hnone]

/-- A post whose integer key is given as a numeral. -/
theorem created_row_journal :
    let service : Service := ⟨Config.journal, Config.resolveResource Config.postsDef, .api⟩
    let store : Store := ⟨[("posts", [[("id", .int 1)]])]⟩
    let row : Row := [
      ("id", .str "7"), ("slug", .null), ("title", .str "new"), ("created_at", .str "now"),
      ("deleted_at", .null)]
    let created := service.create ⟨"now", ""⟩ store [("title", .str "new"), ("id", .str "7")]
    created = (row, store.setRows "posts" [[("id", .int 1)], row]) ∧
      service.ReachesLast created.2 (.int 7) [[("id", .int 1)]] row := by
  intro service store row created
  have opened : open? Config.journal .api "posts" = .ok service := rfl
  have given : Fields.get? [("title", .str "new"), ("id", .str "7")] service.resource.primaryKey =
      some (.str "7") := rfl
  have read : service.keyOfValue (.str "7") = .ok (.int 7) := rfl
  have unmarked : ∀ mark ∈ service.resource.softDeleteColumn,
      Row.present? [("title", .str "new"), ("id", .str "7")] mark = none ∧
        ¬ service.resource.Stamps mark := by
    intro mark hmark
    cases hmark
    exact ⟨rfl, by decide⟩
  have missing : service.rowOfKey store (.int 7) [] [] = .error (.notFound .record) :=
    (rowOfKey_eq_find? store rfl rfl rfl).trans rfl
  obtain ⟨_, hcreate, _, hreaches, _⟩ := created_row opened rfl given read
    (fun mark hmark => (unmarked mark hmark).1) missing ⟨"now", ""⟩
  cases hcreate
  have halike : (Json.str "7").text? = (Json.int 7).text? := by decide +kernel
  exact ⟨rfl, hreaches halike fun mark hmark => (unmarked mark hmark).2⟩

/-- A row whose identifier is given in upper case is not found: it is looked up in lower case. -/
theorem created_not_found_upper_case :
    let r := Config.resolveResource {
      name := "posts"
      table := "posts"
      columns := [.typed "id" (some "uuid"), .plain "title"] }
    let service : Service := ⟨⟨[r]⟩, r, .api⟩
    let value : Json := .str "A0EEBC99-9C0B-4EF8-BB6D-6BB9BD380A11"
    let id : Json := .str "a0eebc99-9c0b-4ef8-bb6d-6bb9bd380a11"
    let created := service.create ⟨"now", ""⟩ ⟨[]⟩ [("id", value), ("title", .str "new")]
    service.keyOfValue value = .ok id ∧
      created.1 = [("id", value), ("title", .str "new"), ("created_at", .str "now")] ∧
      service.rowOfKey created.2 id [] [] = .error (.notFound .record) := by
  intro r service value id created
  exact ⟨rfl, rfl, (rowOfKey_eq_find? created.2 rfl rfl rfl).trans rfl⟩

end Service

end Records
