import Records.Proofs.Number.Rounding
import Records.Proofs.Store.Changes
import Records.Proofs.Store.Lookup

/-!
# Integer keys

Keys are compared as doubles, so an operation that is addressed by an integer spares the rows under
another integer exactly when the two round to different doubles, which they do when the magnitude of
one of them is below `2 ^ 53` (`spares_iff`).  From there on neighbours meet in one double, and an
operation may reach the row of another key (`not_spares_neighbour`).
-/

set_option autoImplicit false

namespace Records

/-- Integers agree when the doubles nearest to them are the same. -/
theorem Json.agrees_int (a b : Int) :
    (Json.int a).agrees (.int b) = decide (Double.ofInt a = Double.ofInt b) := by
  simp only [agrees, double?, Double.key_ofInt_eq_iff]

namespace Row

/-- Whether the key of a row is an integer. -/
def isNumbered (r : Resource) (a : Int) (row : Row) : Bool :=
  match Fields.get? row r.primaryKey with
  | some (.int n) => n == a
  | _ => false

variable {r : Resource} {a : Int} {row : Row}

/-- A row is under an integer when its key is that integer. -/
theorem isNumbered_eq_true : isNumbered r a row = true ↔
    Fields.get? row r.primaryKey = some (.int a) := by
  rw [isNumbered]
  split
  · rename_i n hn
    rw [hn]
    simp
  · rename_i hother
    simp only [Bool.false_eq_true, false_iff]
    exact hother a

/-- Putting a text into a row brings it under no integer. -/
theorem isNumbered_put_str (h : isNumbered r a row = false) (column s : String) :
    isNumbered r a (Fields.put row column (.str s)) = false := by
  rw [isNumbered, Fields.get?_put]
  by_cases hcolumn : column = r.primaryKey
  · simp [hcolumn]
  · rw [if_neg hcolumn]
    exact h

/-- An update brings no row under an integer. -/
theorem isNumbered_updatedRow (h : isNumbered r a row = false) (supply : Supply) (data : Fields) :
    isNumbered r a (Store.updatedRow supply r data row) = false := by
  have hchanged : isNumbered r a ((r.changedFields data).foldl
      (fun row field => Fields.put row field.1 field.2) row) = false := by
    have hkey : ∀ field ∈ r.changedFields data, field.1 ≠ r.primaryKey := by
      intro field hfield
      have hkept := (List.mem_filter.mp hfield).2
      simp only [Bool.and_eq_true, decide_eq_true_eq] at hkept
      exact hkept.1
    rw [isNumbered, Fields.get?_foldl_put_of_ne _ _ hkey]
    exact h
  rw [Store.updatedRow]
  split
  · exact isNumbered_put_str hchanged _ _
  · exact hchanged

/-- A row that an integer reaches is not under another one: the two round differently, or only rows
without a key are live. -/
theorem isNumbered_of_isAddressed {b : Int}
    (apart : r.softDeleteColumn = some r.primaryKey ∨ Double.ofInt a ≠ Double.ofInt b)
    (h : Store.isAddressed r (.int b) row = true) : isNumbered r a row = false := by
  rw [Store.isAddressed, Bool.and_eq_true] at h
  obtain ⟨hlive, hkey⟩ := h
  rw [← Bool.not_eq_true, isNumbered_eq_true]
  intro hnumber
  rcases apart with hmark | hround
  · simp [isLive, hmark, present?, hnumber, Json.present?] at hlive
  · simp [hasKey, hnumber, Json.agrees_int, hround] at hkey

end Row

namespace Store

/-- The rows of a resource under an integer, in order. -/
def numbered (store : Store) (r : Resource) (a : Int) : List Row :=
  (store.rows r.name).filter (Row.isNumbered r a)

/-- An operation gives no row under an integer, and leaves all of these rows as they are. -/
def Spares (store : Store) (r : Resource) (a : Int) (out : Except Fault Json × Store) : Prop :=
  (∀ row, out.1 = .ok (.obj row) → Row.isNumbered r a row = false) ∧
    out.2.numbered r a = store.numbered r a

variable {store : Store} {r : Resource} {a : Int}

/-- A fault with the store as it was spares every row. -/
theorem spares_fault (why : Fault) : store.Spares r a (.error why, store) :=
  ⟨fun _ h => (nomatch h), rfl⟩

/-- The outcome of a step spares what the rows that it leaves keep. -/
theorem spares_outcome {found : Option (Row × List Row)}
    (h : ∀ row left, found = some (row, left) → Row.isNumbered r a row = false ∧
      left.filter (Row.isNumbered r a) = (store.rows r.name).filter (Row.isNumbered r a)) :
    store.Spares r a
      (Service.requireRow (store.outcome r found).1, (store.outcome r found).2) := by
  cases found with
  | none => exact spares_fault _
  | some out =>
    obtain ⟨row, left⟩ := out
    obtain ⟨hrow, hleft⟩ := h row left rfl
    constructor
    · intro other hother
      cases hother
      exact hrow
    · show ((store.setRows r.name left).rows r.name).filter _ = _
      rw [rows_setRows, hleft]
      rfl

end Store

namespace Service

/-- No operation addressed by one of some integers shows, gives, changes or removes a row under the
integer `a`. -/
structure Spares (service : Service) (a : Int) (ids : List Int) : Prop where
  shown : ∀ (store : Store), ∀ b ∈ ids, ∀ (eager columns : List String) (shown : Json),
    service.rowOfKey store (.int b) eager columns = .ok shown →
      ∃ query, Listing.base service.resource eager columns = .ok query ∧
        ∃ row ∈ store.rows service.resource.name, Row.isNumbered service.resource a row = false ∧
          store.project service.model service.resource query row = .ok shown
  updated : ∀ (store : Store), ∀ b ∈ ids, ∀ (supply : Supply) (data : Fields),
    store.Spares service.resource a (service.update supply store (.int b) data)
  deleted : ∀ (store : Store), ∀ b ∈ ids, ∀ supply : Supply,
    store.Spares service.resource a (service.delete supply store (.int b))
  allDeleted : ∀ (store : Store) (supply : Supply),
    (service.deleteAll supply store (ids.map .int)).2.numbered service.resource a =
      store.numbered service.resource a

variable {service : Service} {a b : Int}

section

variable (apart : service.resource.softDeleteColumn = some service.resource.primaryKey ∨
  Double.ofInt a ≠ Double.ofInt b)

include apart

/-- The row that is shown under another integer is not one of the rows spared. -/
theorem shown_spares
    (hresource : service.model.requireResource service.resource.name = .ok service.resource)
    {store : Store} {eager columns : List String} {shown : Json}
    (h : service.rowOfKey store (.int b) eager columns = .ok shown) :
    ∃ query, Listing.base service.resource eager columns = .ok query ∧
      ∃ row ∈ store.rows service.resource.name, Row.isNumbered service.resource a row = false ∧
        store.project service.model service.resource query row = .ok shown := by
  obtain ⟨query, hbase, _⟩ := Outcome.bind_eq_ok.mp h
  rw [rowOfKey_eq_find? store hresource rfl hbase] at h
  split at h
  · rename_i row hrow
    have haddressed := List.find?_some hrow
    exact ⟨query, hbase, row, List.mem_of_find?_eq_some hrow,
      Row.isNumbered_of_isAddressed apart haddressed, h⟩
  · cases h

/-- An update under an integer apart from theirs spares the rows. -/
theorem update_spares (store : Store) (supply : Supply) (data : Fields) :
    store.Spares service.resource a (service.update supply store (.int b) data) := by
  apply Store.spares_outcome
  intro row left hleft
  exact Store.filter_changeFirst hleft (fun _ => Row.isNumbered_of_isAddressed apart)
    fun _ hrow => Row.isNumbered_updatedRow hrow supply data

/-- A deletion under an integer apart from theirs spares the rows. -/
theorem delete_spares (store : Store) (supply : Supply) :
    store.Spares service.resource a (service.delete supply store (.int b)) := by
  rw [delete]
  split
  · exact Store.spares_fault _
  · apply Store.spares_outcome
    intro row left hleft
    cases hmark : service.resource.softDeleteColumn with
    | some column =>
      rw [hmark] at hleft
      exact Store.filter_changeFirst hleft (fun _ => Row.isNumbered_of_isAddressed apart)
        fun _ hrow => Row.isNumbered_put_str hrow column supply.now
    | none =>
      rw [hmark] at hleft
      apply Store.filter_removeFirst hleft
      intro other hother
      apply Row.isNumbered_of_isAddressed apart
      simpa [Store.isAddressed, Row.isLive, hmark] using hother

end

/-- A deletion under integers all apart from theirs spares the rows. -/
theorem deleteAll_spares {ids : List Int}
    (apart : ∀ b ∈ ids, service.resource.softDeleteColumn = some service.resource.primaryKey ∨
      Double.ofInt a ≠ Double.ofInt b) (store : Store) (supply : Supply) :
    (service.deleteAll supply store (ids.map .int)).2.numbered service.resource a =
      store.numbered service.resource a := by
  have hhit : ∀ row,
      Store.isAddressedIn service.resource (ids.map .int) row = true →
        Row.isNumbered service.resource a row = false := by
    intro row hrow
    rw [Store.isAddressedIn, Bool.and_eq_true, List.any_map, List.any_eq_true] at hrow
    obtain ⟨hlive, b, hb, hkey⟩ := hrow
    apply Row.isNumbered_of_isAddressed (apart b hb)
    rw [Store.isAddressed, hlive]
    exact hkey
  rw [deleteAll]
  split
  · rfl
  · rw [Store.numbered, Store.deleteIn, Store.rows_setRows]
    cases hmark : service.resource.softDeleteColumn with
    | some column =>
      exact Store.filter_map_of_kept hhit fun _ hrow => Row.isNumbered_put_str hrow column supply.now
    | none => exact Store.filter_filter_of_kept hhit

/-- Over integers that round to the same double, an update addressed by the one gives a row that is
stored under the other. -/
theorem not_spares_of_ofInt_eq {ids : List Int} (hb : b ∈ ids)
    (hround : Double.ofInt a = Double.ofInt b)
    (hmark : service.resource.softDeleteColumn ≠ some service.resource.primaryKey) :
    ¬ service.Spares a ids := by
  intro spares
  let row : Row := [(service.resource.primaryKey, .int a)]
  let store : Store := ⟨[(service.resource.name, [row])]⟩
  have hkey : Fields.get? row service.resource.primaryKey = some (.int a) := by
    simp [row, Fields.get?]
  have hrows : store.rows service.resource.name = [row] := by simp [store, Store.rows]
  have hlive : Row.isLive service.resource row = true := by
    rw [Row.isLive]
    cases hcolumn : service.resource.softDeleteColumn with
    | none => rfl
    | some column =>
      have hne : service.resource.primaryKey ≠ column := fun h => hmark (h ▸ hcolumn)
      simp [row, Row.present?, Fields.get?, hne, Json.present?]
  have haddressed : Store.isAddressed service.resource (.int b) row = true := by
    simp [Store.isAddressed, hlive, Row.hasKey, hkey, Json.agrees_int, hround]
  have hupdate : (service.update ⟨"", ""⟩ store (.int b) []).1 = .ok (.obj row) := by
    rw [update, Store.update, hrows]
    simp only [Store.changeFirst, if_pos haddressed]
    rfl
  have hspared := (spares.updated store b hb ⟨"", ""⟩ []).1 row hupdate
  rw [← Bool.not_eq_true] at hspared
  exact hspared (Row.isNumbered_eq_true.mpr hkey)

/-- Operations addressed by integers spare the rows under an integer exactly when it rounds to a
double of its own, unless the trash mark is the key, so that no row with a key is live.  Integers
round apart when the magnitude of one of them is below `2 ^ 53`. -/
theorem spares_iff {model : Model} {flavor : Flavor} {name : String}
    (opened : open? model flavor name = .ok service) (a : Int) (ids : List Int) :
    (service.Spares a ids ↔
      service.resource.softDeleteColumn = some service.resource.primaryKey ∨
        ∀ b ∈ ids, Double.ofInt a ≠ Double.ofInt b) ∧
    ∀ b, a ≠ b → a.natAbs < 2 ^ 53 ∨ b.natAbs < 2 ^ 53 → Double.ofInt a ≠ Double.ofInt b := by
  obtain ⟨_, _, hresource⟩ := open?_eq_ok opened
  refine ⟨⟨?_, ?_⟩, fun b hne h => Double.ofInt_ne_of_natAbs_lt hne h⟩
  · intro spares
    by_cases hmark : service.resource.softDeleteColumn = some service.resource.primaryKey
    · exact .inl hmark
    · exact .inr fun b hb hround => not_spares_of_ofInt_eq hb hround hmark spares
  · intro h
    have apart : ∀ b ∈ ids, service.resource.softDeleteColumn = some service.resource.primaryKey ∨
        Double.ofInt a ≠ Double.ofInt b := fun b hb => h.imp_right fun hround => hround b hb
    exact {
      shown := fun store b hb eager columns shown => shown_spares (apart b hb) hresource
      updated := fun store b hb => update_spares (apart b hb) store
      deleted := fun store b hb => delete_spares (apart b hb) store
      allDeleted := deleteAll_spares apart }

/-- The greatest magnitude that is safe, next to the two that are not. -/
theorem spares_iff_journal :
    let service : Service := ⟨Config.journal, Config.resolveResource Config.postsDef, .api⟩
    open? Config.journal .api "posts" = .ok service ∧
      service.Spares 9007199254740991 [9007199254740992, 9007199254740993] := by
  intro service
  have opened : open? Config.journal .api "posts" = .ok service := rfl
  obtain ⟨hiff, hround⟩ :=
    spares_iff opened 9007199254740991 [9007199254740992, 9007199254740993]
  refine ⟨opened, hiff.mpr (.inr fun b hb => hround b ?_ (.inl (by decide)))⟩
  rcases List.mem_pair.mp hb with rfl | rfl <;> decide

/-- An update of the post `2 ^ 53 + 1`, which is not there, changes the post `2 ^ 53`. -/
theorem not_spares_neighbour :
    let service : Service := ⟨Config.journal, Config.resolveResource Config.postsDef, .api⟩
    let store : Store := ⟨[("posts", [[("id", .int 9007199254740992), ("title", .str "kept")]])]⟩
    service.update ⟨"now", ""⟩ store (.int 9007199254740993) [("title", .str "changed")] =
        (.ok (.obj [("id", .int 9007199254740992), ("title", .str "changed")]),
          ⟨[("posts", [[("id", .int 9007199254740992), ("title", .str "changed")]])]⟩) ∧
      ¬ service.Spares 9007199254740992 [9007199254740993] := by
  intro service store
  exact ⟨rfl, not_spares_of_ofInt_eq (List.mem_singleton_self _) (by decide) (by decide)⟩

end Service

end Records
