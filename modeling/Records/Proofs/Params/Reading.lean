import Records.Params.Listing
import Records.Proofs.Filter.Path

/-!
# Parameters that are read

Page numbers and page sizes that are read are positive, and no key of a filter that is read
traverses more than `FilterPath.maxRelations` relations, be it alone or in a group
(`inBounds_of_parse`).
-/

set_option autoImplicit false

namespace Records

mutual

/-- How many relations the keys of an item traverse at most. -/
def FilterItem.reach : FilterItem → Nat
  | .condition path _ => path.relations.length
  | .anyOf items => FilterItem.reaches items

/-- How many relations the keys of some items traverse at most. -/
def FilterItem.reaches : List FilterItem → Nat
  | [] => 0
  | item :: items => max item.reach (FilterItem.reaches items)

end

/-- Items reach no deeper than a bound exactly when each of them does not. -/
theorem FilterItem.reaches_le_iff (items : List FilterItem) (depth : Nat) :
    FilterItem.reaches items ≤ depth ↔ ∀ item ∈ items, item.reach ≤ depth := by
  induction items with
  | nil => simp [reaches]
  | cons item rest ih => rw [reaches, Nat.max_le, ih, List.forall_mem_cons]

/-- A bound that is read does not depend on the name that it would be rejected under. -/
theorem dayBound_of_dayBound {name : String} {value : Option Json} {raw : Option String}
    (h : dayBound name value = .ok raw) (other : String) : dayBound other value = .ok raw := by
  rw [dayBound.eq_def] at h ⊢
  split at h
  · exact h
  · exact h
  · exact h
  · cases h

/-- A path that was read follows at most the allowed number of relations. -/
theorem FilterPath.length_relations_le_of_parse {raw : String} {path : FilterPath}
    (h : FilterPath.parse raw = .ok path) : path.relations.length ≤ maxRelations :=
  (parse_eq_ok_iff.mp h).2.2

namespace FilterItem

/-- A condition that was read reaches no deeper than allowed. -/
theorem reach_le_of_parseCondition {field : String × Json} {item : FilterItem}
    (h : parseCondition field = .ok item) : item.reach ≤ FilterPath.maxRelations := by
  obtain ⟨path, hpath, h⟩ := Outcome.bind_eq_ok.mp h
  obtain ⟨operand, _, h⟩ := Outcome.bind_eq_ok.mp h
  cases h
  exact FilterPath.length_relations_le_of_parse hpath

/-- A member of a group that was read reaches no deeper than allowed. -/
theorem reach_le_of_parseMember {field : String × Json} {item : FilterItem}
    (h : parseMember field = .ok item) : item.reach ≤ FilterPath.maxRelations := by
  rw [parseMember] at h
  split at h
  · cases h
  · exact reach_le_of_parseCondition h

/-- Items read one by one reach no deeper than their reader allows. -/
theorem reaches_le_of_mapM {read : String × Json → Except Fault FilterItem}
    (hread : ∀ field item, read field = .ok item → item.reach ≤ FilterPath.maxRelations)
    {fields : Fields} {items : List FilterItem} (h : fields.mapM read = .ok items) :
    reaches items ≤ FilterPath.maxRelations := by
  rw [reaches_le_iff]
  intro item hitem
  obtain ⟨field, _, hfield⟩ := Outcome.exists_of_mapM_eq_ok h hitem
  exact hread field item hfield

/-- The keys in an item that is read are short, those in a group too. -/
theorem reach_le_of_parse {field : String × Json} {item : FilterItem} (h : parse field = .ok item) :
    item.reach ≤ FilterPath.maxRelations := by
  rw [parse] at h
  split at h
  · obtain ⟨members, hmembers, rfl⟩ := Outcome.map_eq_ok.mp h
    exact reaches_le_of_mapM (fun _ _ => reach_le_of_parseMember) hmembers
  · exact reach_le_of_parseCondition h

end FilterItem

/-- Filters that were read reach no deeper than allowed. -/
theorem Filters.reaches_le_of_parse {value : Json} {filters : Filters}
    (h : Filters.parse value = .ok filters) :
    FilterItem.reaches filters.items ≤ FilterPath.maxRelations := by
  cases value with
  | null =>
    cases h
    exact Nat.zero_le _
  | obj fields =>
    obtain ⟨_, _, h⟩ := Outcome.bind_eq_ok.mp h
    obtain ⟨_, _, h⟩ := Outcome.bind_eq_ok.mp h
    obtain ⟨items, hitems, h⟩ := Outcome.bind_eq_ok.mp h
    cases h
    exact FilterItem.reaches_le_of_mapM (fun _ _ => FilterItem.reach_le_of_parse) hitems
  | _ => cases h

namespace ListParams

/-- A number that is read is at least one: wherever one is given, it has been tested. -/
theorem one_le_of_parsePositive {name : String} {value : Option Json} {number : Option Nat}
    (h : parsePositive name value = .ok number) {n : Nat} (hn : number = some n) : 1 ≤ n := by
  subst hn
  simp only [parsePositive] at h
  -- each way to read the value either gives no number or has compared it with one
  repeat' split at h
  all_goals cases h
  all_goals assumption

/-- A number that is positive where it is given, with a positive default, is positive. -/
theorem one_le_getD {number : Option Nat} (h : ∀ n, number = some n → 1 ≤ n) {default : Nat}
    (hdefault : 1 ≤ default) : 1 ≤ number.getD default := by
  cases number with
  | none => exact hdefault
  | some n => exact h n rfl

/-- What is known of the numbers and the filters of parameters that are read. -/
structure InBounds (params : ListParams) : Prop where
  page : 1 ≤ params.pageNumber
  size : ∀ flavor, 1 ≤ params.pageSize flavor
  reach : FilterItem.reaches params.filters.items ≤ FilterPath.maxRelations

/-- Parameters that were read are in bounds. -/
theorem inBounds_of_parse {value : Json} {params : ListParams} (h : parse value = .ok params) :
    params.InBounds := by
  cases value with
  | null =>
    cases h
    exact ⟨Nat.le_refl 1, fun flavor => by cases flavor <;> decide, Nat.zero_le _⟩
  | obj fields =>
    obtain ⟨_, _, h⟩ := Outcome.bind_eq_ok.mp h
    obtain ⟨_, _, h⟩ := Outcome.bind_eq_ok.mp h
    obtain ⟨page, hpage, h⟩ := Outcome.bind_eq_ok.mp h
    obtain ⟨limit, hlimit, h⟩ := Outcome.bind_eq_ok.mp h
    obtain ⟨perPage, hperPage, h⟩ := Outcome.bind_eq_ok.mp h
    obtain ⟨_, _, h⟩ := Outcome.bind_eq_ok.mp h
    obtain ⟨filters, hfilters, h⟩ := Outcome.bind_eq_ok.mp h
    cases h
    refine ⟨one_le_getD (fun _ => one_le_of_parsePositive hpage) (Nat.le_refl 1), ?_,
      Filters.reaches_le_of_parse hfilters⟩
    intro flavor
    cases flavor with
    | api => exact one_le_getD (fun _ => one_le_of_parsePositive hperPage) (by decide)
    | web => exact one_le_getD (fun _ => one_le_of_parsePositive hlimit) (by decide)
  | _ => cases h

end ListParams

end Records
