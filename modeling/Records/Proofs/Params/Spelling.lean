import Records.Params.Listing
import Records.Proofs.Params.Notation

/-!
# Parameters in bracket notation

Bracket notation knows texts only, so an integer comes back as its numeral.  Wherever a listing
reads an integer it reads the numeral in the same way, within the same bounds and with the same
faults (`parseCounts_spelled`, `parsePositive_spelled`), and a value without integers comes back as
it is.  So a query says what the object says (`parse_of_pairs`).
-/

set_option autoImplicit false

namespace Records

/-- A field is found among spelled fields as its spelled value. -/
theorem Json.get?_spelledFields (fields : Fields) (name : String) :
    Fields.get? (spelledFields fields) name = (Fields.get? fields name).map spelled := by
  rw [spelledFields_eq_map]
  induction fields with
  | nil => rfl
  | cons field rest ih =>
    rw [List.map_cons, Fields.get?_cons, Fields.get?_cons, ih]
    split <;> rfl

/-- Spelling a value does not change whether it is present. -/
theorem Json.present?_spelled (value : Option Json) :
    present? (value.map spelled) = (present? value).map spelled := by
  cases value with
  | none => rfl
  | some value => cases value <;> rfl

namespace CountBound

/-- A number is read alike from an integer and from its numeral. -/
theorem number_spelled (key : String) (value : Json) :
    number key value.spelled = number key value := by
  cases value with
  | int n => simp only [Json.spelled, number, Numeral.trim_decimal, Numeral.int64?_decimal]
  | _ => rfl

/-- The bound of a count is found alike when its number is spelled. -/
theorem bound?_spelled (fields : Fields) :
    bound? (Json.spelledFields fields) =
      (bound? fields).map fun bound => (bound.1, bound.2.spelled) := by
  simp only [bound?, Json.get?_spelledFields, Json.present?_spelled, Option.map_map, Option.map_or]
  rfl

/-- A bound on a count is read alike from an integer and from its numeral. -/
theorem parse_spelled (field : String × Json) :
    parse (field.1, field.2.spelled) = parse field := by
  obtain ⟨key, value⟩ := field
  cases value with
  | obj fields =>
    simp only [parse, Json.spelled, bound?_spelled]
    cases bound? fields with
    | none => rfl
    | some bound => simp only [Option.map_some, number_spelled]
  | int n =>
    have hnumber := number_spelled key (.int n)
    rw [Json.spelled] at hnumber
    simp only [parse, Json.spelled, hnumber]
  | _ => rfl

end CountBound

namespace ListParams

/-- Bounds on counts are read alike from integers and from their numerals. -/
theorem parseCounts_spelled (value : Option Json) :
    parseCounts (value.map Json.spelled) = parseCounts value := by
  cases value with
  | none => rfl
  | some value =>
    cases value with
    | obj fields =>
      show (Json.spelledFields fields).mapM CountBound.parse = fields.mapM CountBound.parse
      rw [Json.spelledFields_eq_map, List.mapM_map]
      exact congrArg (fields.mapM ·) (funext CountBound.parse_spelled)
    | _ => rfl

/-- A positive number is read alike from an integer and from its numeral. -/
theorem parsePositive_spelled (name : String) (value : Option Json) :
    parsePositive name (value.map Json.spelled) = parsePositive name value := by
  cases value with
  | none => rfl
  | some value =>
    cases value with
    | int n =>
      simp only [Option.map_some, Json.spelled, parsePositive, Numeral.isEmpty_decimal,
        Numeral.trim_decimal, Numeral.nat64?_decimal]
      rfl
    | _ => rfl

/-- The parameters of a listing are read alike from an object and from its spelling. -/
theorem parse_spelledFields {fields : Fields} (h : Brackets.Spellable fields) :
    parse (.obj (Json.spelledFields fields)) = parse (.obj fields) := by
  -- a parameter that may not hold integers is spelled as it is
  have hkept : ∀ name, allowsIntegers name = false →
      Fields.get? (Json.spelledFields fields) name = Fields.get? fields name := by
    intro name hname
    rw [Json.get?_spelledFields]
    cases hvalue : Fields.get? fields name with
    | none => rfl
    | some value =>
      have hspellable := h.values (name, value) (Fields.mem_of_get? hvalue)
      rw [hname] at hspellable
      exact congrArg some hspellable.spelled_eq_self
  have hsort : parseSort (Json.spelledFields fields) = parseSort fields := by
    rw [parseSort, parseSort, hkept "sort" rfl, hkept "order" rfl]
  rw [parse, parse, hkept "search" rfl, hkept "filters" rfl, hsort]
  simp only [Json.get?_spelledFields, parseCounts_spelled, parsePositive_spelled]

/-- The pairs that spell an object are read as the object with its integers as numerals, and what is
read from it is what is read from the object itself, faults included. -/
theorem parse_of_pairs {fields : Fields} (h : Brackets.Spellable fields) :
    Brackets.ofPairs (Brackets.encode fields) = .ok (.obj (Json.spelledFields fields)) ∧
      parse (.obj (Json.spelledFields fields)) = parse (.obj fields) :=
  ⟨Brackets.ofPairs_encode h, parse_spelledFields h⟩

/-- Filters with a list, a count that is an integer, and a page that is none. -/
theorem parse_of_pairs_journal :
    let tags : Fields := [("status", .str "active"), ("not:tag", .arr (["a", "b"].map .str))]
    let comments : Fields := [("min", .int 5)]
    let counts : Fields := [("comments", .obj comments)]
    let fields : Fields := [("filters", .obj tags), ("counts", .obj counts), ("page", .int (-2))]
    Brackets.Spellable fields ∧
      Brackets.encode fields = [("filters[status]", "active"), ("filters[not:tag][]", "a"),
        ("filters[not:tag][]", "b"), ("counts[comments][min]", "5"), ("page", "-2")] ∧
      Brackets.ofPairs (Brackets.encode fields) = .ok (.obj (Json.spelledFields fields)) ∧
      parse (.obj (Json.spelledFields fields)) = parse (.obj fields) := by
  intro tags comments counts fields
  have htags : (Json.obj tags).Spellable false := by
    refine .obj (List.cons_ne_nil _ _) (by decide) (by decide) ?_
    intro field hfield
    rcases List.mem_pair.mp hfield with rfl | rfl
    · exact .str "active"
    · exact .arr (List.cons_ne_nil _ _)
  have hcomments : (Json.obj comments).Spellable true := by
    refine .obj (List.cons_ne_nil _ _) (by decide) (by decide) ?_
    exact List.forall_mem_singleton.mpr (.int rfl 5)
  have hcounts : (Json.obj counts).Spellable true := by
    refine .obj (List.cons_ne_nil _ _) (by decide) (by decide) ?_
    exact List.forall_mem_singleton.mpr hcomments
  have hspellable : Brackets.Spellable fields := by
    constructor
    · decide
    · decide
    · rintro field hfield
      rcases List.mem_cons.mp hfield with rfl | hfield
      · exact htags
      · rcases List.mem_pair.mp hfield with rfl | rfl
        · exact hcounts
        · exact .int rfl (-2)
    · intro field hfield s hs
      rcases List.mem_cons.mp hfield with rfl | hfield
      · cases hs
      · rcases List.mem_pair.mp hfield with rfl | rfl <;> cases hs
  have hpairs : Brackets.encode fields = [("filters[status]", "active"),
      ("filters[not:tag][]", "a"), ("filters[not:tag][]", "b"), ("counts[comments][min]", "5"),
      ("page", "-2")] := by decide +kernel
  exact ⟨hspellable, hpairs, parse_of_pairs hspellable⟩

end ListParams

end Records
