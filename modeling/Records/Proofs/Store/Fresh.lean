import Records.Proofs.Json.Order
import Records.Proofs.Store.Insertion
import Records.Proofs.Store.Keys

/-!
# Generated keys

A row that is given no integer key is numbered one past the greatest key that is counted.  Counting
takes 64-bit integers and numerals, while keys are compared as doubles, so a number can be met by a
key that was passed over: a double, an integer that rounds to the same double, or its own numeral,
once the count has wrapped around (`generated_key`, `not_fresh_neighbour`).
-/

set_option autoImplicit false

namespace Records

/-- Of the values that are no numbers only the numeral of an integer agrees with it. -/
theorem Json.agrees_int_iff {key : Json} {n : Int} : key.agrees (.int n) = true ↔
    match key with
    | .int m => Double.ofInt m = Double.ofInt n
    | .double d => d.key = (Double.ofInt n).key
    | .str s => s = Numeral.decimal n
    | _ => False := by
  have hother : ∀ key : Json, key.isNull = false → key.place.kind ≠ 1 →
      key.compact ≠ (Json.int n).compact :=
    fun _ hkey hkind => Json.compact_ne_of_kind_ne (b := .int n) hkey rfl hkind
  cases key with
  | null => simp [agrees_null]
  | int m => simp [agrees_int]
  | double d => simp [agrees, double?]
  | str s => simp [agrees, double?, text?, compact, print, Numeral.decimal]
  | bool b => simp [agrees, double?, text?, hother (.bool b) rfl (by simp [place])]
  | arr items => simp [agrees, double?, text?, hother (.arr items) rfl (by simp [place])]
  | obj fields => simp [agrees, double?, text?, hother (.obj fields) rfl (by simp [place])]

namespace Store

variable {r : Resource} {rows : List Row}

/-- Counted keys are 64-bit integers. -/
theorem isInt64_of_mem_keyNumbers {k : Int} (h : k ∈ keyNumbers r rows) :
    Numeral.isInt64 k = true := by
  obtain ⟨row, _, hrow⟩ := List.mem_filterMap.mp h
  obtain ⟨key, _, hkey⟩ := Option.bind_eq_some_iff.mp hrow
  cases key with
  | str s => exact (Option.filter_eq_some_iff.mp hkey).2
  | int n =>
    simp only [keyNumber?, Json.int64?] at hkey
    split at hkey <;> simp_all
  | _ => cases hkey

/-- The next number is above all that are counted, unless these reach to the end of the 64-bit
integers, where counting goes on from their beginning. -/
theorem nextNumber_cases {keys : List Int} (h : ∀ k ∈ keys, Numeral.isInt64 k = true) :
    Numeral.isInt64 (nextNumber keys) = true ∧
      ((∀ k ∈ keys, k < nextNumber keys) ∨ nextNumber keys = Numeral.leastInt64) := by
  cases hmax : keys.max? with
  | none =>
    rw [List.max?_eq_none_iff] at hmax
    subst hmax
    exact ⟨by decide, .inl (by simp)⟩
  | some greatest =>
    obtain ⟨hmem, hle⟩ := List.max?_eq_some_iff.mp hmax
    have hbound := Numeral.isInt64_iff.mp (h greatest hmem)
    by_cases hlast : greatest = 9223372036854775807
    · have hnext : nextNumber keys = -9223372036854775808 := by
        simp only [nextNumber, hmax, hlast]
        decide
      rw [hnext]
      exact ⟨by decide, .inr rfl⟩
    · have hnext : nextNumber keys = greatest + 1 := by
        simp only [nextNumber, hmax]
        rw [Int.bmod_eq_iff (Nat.two_pow_pos 64)]
        simp
        omega
      rw [hnext]
      refine ⟨Numeral.isInt64_iff.mpr (by omega), .inl fun k hk => ?_⟩
      have hk := hle k hk
      omega

end Store

/-- Whether the key of a row agrees with a generated number all the same: as another number of its
double, or as its numeral when counting has begun anew. -/
def Row.Meets (r : Resource) (n : Int) (row : Row) : Prop :=
  match Fields.get? row r.primaryKey with
  | some (.int m) => 2 ^ 53 ≤ n.natAbs ∧ Double.ofInt m = Double.ofInt n
  | some (.double d) => d.key = (Double.ofInt n).key
  | some (.str s) => n = Numeral.leastInt64 ∧ s = Numeral.decimal n
  | _ => False

/-- A stored key agrees with the next number only where counting passed it over. -/
theorem Row.hasKey_nextNumber_iff {r : Resource} {rows : List Row} {row : Row} (hrow : row ∈ rows) :
    Row.hasKey r (.int (Store.nextNumber (Store.keyNumbers r rows))) row = true ↔
      Row.Meets r (Store.nextNumber (Store.keyNumbers r rows)) row := by
  obtain ⟨hrange, hnext⟩ := Store.nextNumber_cases fun _ => Store.isInt64_of_mem_keyNumbers
  generalize hn : Store.nextNumber (Store.keyNumbers r rows) = n at hrange hnext
  -- the key of the row is counted when it is the number itself, or its numeral
  have hcounted : ∀ key, Fields.get? row r.primaryKey = some key →
      Store.keyNumber? key = some n → n = Numeral.leastInt64 := by
    intro key hkey hnumber
    rcases hnext with hless | hleast
    · have hmem : n ∈ Store.keyNumbers r rows :=
        List.mem_filterMap.mpr ⟨row, hrow, by rw [hkey]; exact hnumber⟩
      exact absurd (hless n hmem) (Int.lt_irrefl n)
    · exact hleast
  have hself : (Json.int n).int64? = some n := by simp [Json.int64?, hrange]
  rw [hasKey, Meets]
  cases hkey : Fields.get? row r.primaryKey with
  | none => simp
  | some key =>
    rw [Json.agrees_int_iff]
    cases key with
    | int m =>
      refine ⟨fun hround => ⟨?_, hround⟩, And.right⟩
      by_cases hm : m = n
      · subst hm
        rw [hcounted _ hkey hself]
        decide
      · by_contra hsmall
        exact Double.ofInt_ne_of_natAbs_lt hm (.inr (by omega)) hround
    | str s =>
      refine ⟨fun hs => ⟨?_, hs⟩, And.right⟩
      subst hs
      apply hcounted _ hkey
      rw [Store.keyNumber?, Numeral.int64?_decimal, hself]
    | _ => rfl

namespace Service

variable {service : Service}

/-- A row that is given no key in a resource with integer keys is stored last, under a number. The
key of a row stored before agrees with the number only when it is a double, when the number is of
magnitude `2 ^ 53` or more, so that another integer may round to its double, or when counting has
begun anew.  If the new row is live and no live row stored before is met, operations addressed by
the number reach the new row alone. -/
theorem generated_key {model : Model} {flavor : Flavor} {name : String}
    (opened : open? model flavor name = .ok service)
    (counted : service.resource.keyType = .int ∨ service.resource.keyType = .bigInt)
    (supply : Supply) (store : Store) {data : Fields}
    (keyless : Row.present? data service.resource.primaryKey = none) :
    ∃ row n,
      service.create supply store data =
        (row, store.setRows service.resource.name (store.rows service.resource.name ++ [row])) ∧
      Fields.get? row service.resource.primaryKey = some (.int n) ∧
      (∀ other ∈ store.rows service.resource.name,
        Row.hasKey service.resource (.int n) other = true ↔ Row.Meets service.resource n other) ∧
      (Row.isLive service.resource row = true →
        (∀ other ∈ store.rows service.resource.name, Row.isLive service.resource other = true →
          ¬ Row.Meets service.resource n other) →
        service.ReachesLast (service.create supply store data).2 (.int n)
          (store.rows service.resource.name) row) := by
  obtain ⟨_, _, hresource⟩ := open?_eq_ok opened
  let rows := store.rows service.resource.name
  let n := Store.nextNumber (Store.keyNumbers service.resource rows)
  let row := Store.newRow supply service.resource rows data
  have hgenerated : Store.generatedKey? supply service.resource rows = some (.int n) := by
    rw [Store.generatedKey?]
    rcases counted with h | h <;> rw [h]
  have hkey : Fields.get? row service.resource.primaryKey = some (.int n) := by
    refine (Json.present?_eq_some_iff.mp (?_ : Row.present? row _ = _)).1
    rw [Store.present?_newRow, keyless, ite_self, Option.none_or, if_pos rfl, hgenerated,
      Option.some_or]
  -- a stored key agrees with the new one only where counting passed it over
  have hmeets : ∀ other ∈ rows, Row.hasKey service.resource (.int n) other = true ↔
      Row.Meets service.resource n other := fun _ => Row.hasKey_nextNumber_iff
  refine ⟨row, n, rfl, hkey, hmeets, ?_⟩
  intro hlive hfree
  apply reachesLast_of_forall hresource rfl (Store.rows_setRows _ _ _)
  · intro other hother
    rw [Store.isAddressed, Bool.and_eq_false_iff, ← Bool.not_eq_true, ← Bool.not_eq_true]
    by_cases hotherLive : Row.isLive service.resource other = true
    · exact .inr fun h => hfree other hother hotherLive ((hmeets other hother).mp h)
    · exact .inl hotherLive
  · rw [Store.isAddressed, hlive, Row.hasKey, hkey]
    simp [Json.agrees_int]

/-- Trashed rows and keys that are numerals are counted too. -/
theorem generated_key_journal :
    let service : Service := ⟨Config.journal, Config.resolveResource Config.postsDef, .api⟩
    let rows : List Row := [
      [("id", .int 1), ("title", .str "first")],
      [("id", .str "9"), ("deleted_at", .str "before")]]
    let store : Store := ⟨[("posts", rows)]⟩
    let row : Row := [
      ("id", .int 10), ("slug", .null), ("title", .str "new"), ("created_at", .str "now"),
      ("deleted_at", .null)]
    let created := service.create ⟨"now", ""⟩ store [("title", .str "new")]
    created = (row, store.setRows "posts" (rows ++ [row])) ∧
      service.ReachesLast created.2 (.int 10) rows row := by
  intro service rows store row created
  have opened : open? Config.journal .api "posts" = .ok service := rfl
  have keyless : Row.present? [("title", .str "new")] service.resource.primaryKey = none := rfl
  obtain ⟨_, n, hcreate, hkey, _, hreaches⟩ :=
    generated_key opened (.inr rfl) ⟨"now", ""⟩ store keyless
  cases hcreate
  cases hkey
  refine ⟨rfl, hreaches rfl ?_⟩
  intro other hother hlive
  rcases List.mem_pair.mp hother with rfl | rfl
  · rintro ⟨hlarge, _⟩
    revert hlarge
    decide
  · cases hlive

/-- After the post `2 ^ 53` a new post is given the key `2 ^ 53 + 1`, which both posts have: an
update addressed by it changes the older one. -/
theorem not_fresh_neighbour :
    let service : Service := ⟨Config.journal, Config.resolveResource Config.postsDef, .api⟩
    let old : Row := [("id", .int 9007199254740992), ("title", .str "kept")]
    let store : Store := ⟨[("posts", [old])]⟩
    let created := service.create ⟨"now", ""⟩ store [("title", .str "new")]
    Fields.get? created.1 "id" = some (.int 9007199254740993) ∧
      Row.hasKey service.resource (.int 9007199254740993) old = true ∧
      (service.update ⟨"now", ""⟩ created.2 (.int 9007199254740993)
        [("title", .str "changed")]).1 =
          .ok (.obj [("id", .int 9007199254740992), ("title", .str "changed")]) :=
  ⟨rfl, rfl, rfl⟩

end Service

end Records
