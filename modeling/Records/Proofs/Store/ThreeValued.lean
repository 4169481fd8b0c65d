import Records.Proofs.Config.Sound
import Records.Proofs.Json.Fields
import Records.Proofs.Store.Evaluation
import Records.Proofs.Store.Lookup

/-!
# Evaluation in three-valued logic

The truth of a clause in the logic of SQL, where a comparison with null is neither true nor false.
Negation stands only at tests of a column and at tests on related rows, so an evaluator that takes
unknown for false at every test gives the rows whose clause is true (`satisfies_eq_truth`), as long
as no list of a negated membership test holds a null.
-/

set_option autoImplicit false

namespace Records

/-- A truth value of SQL. -/
inductive Truth where
  | no
  | unknown
  | yes
deriving DecidableEq, Repr

namespace Truth

def ofBool (b : Bool) : Truth := if b then .yes else .no

def not : Truth → Truth
  | .no => .yes
  | .unknown => .unknown
  | .yes => .no

def and : Truth → Truth → Truth
  | .no, _ => .no
  | .yes, b => b
  | .unknown, .no => .no
  | .unknown, _ => .unknown

def or : Truth → Truth → Truth
  | .yes, _ => .yes
  | .no, b => b
  | .unknown, .yes => .yes
  | .unknown, _ => .unknown

def all (truths : List Truth) : Truth := truths.foldr and .yes

def any (truths : List Truth) : Truth := truths.foldr or .no

/-- Whether two values are equal; unknown when one of them is null or missing. -/
def ofEquality (a b : Option Json) : Truth :=
  match Json.present? a, Json.present? b with
  | some x, some y => ofBool (x.agrees y)
  | _, _ => .unknown

/-- A chain of conditions: `and` binds tighter than `or`, and the first joiner has no effect. -/
def ofEntries (entries : List (Joiner × Truth)) : Truth :=
  if entries.isEmpty then .yes
  else any ((joinedRuns (fun entry => entry.1 = .or) entries).map fun run => all (run.map (·.2)))

/-- The truth value of `true` alone is yes. -/
theorem ofBool_eq_yes (b : Bool) : ofBool b = .yes ↔ b = true := by cases b <;> simp [ofBool]

/-- The truth value of `false` alone is no. -/
theorem ofBool_eq_no (b : Bool) : ofBool b = .no ↔ b = false := by cases b <;> simp [ofBool]

/-- A negation is true when what it negates is false. -/
theorem not_eq_yes (a : Truth) : a.not = .yes ↔ a = .no := by cases a <;> simp [not]

/-- A conjunction is true when both parts are. -/
theorem and_eq_yes (a b : Truth) : a.and b = .yes ↔ a = .yes ∧ b = .yes := by
  cases a <;> cases b <;> simp [and]

/-- A disjunction is true when one part is. -/
theorem or_eq_yes (a b : Truth) : a.or b = .yes ↔ a = .yes ∨ b = .yes := by
  cases a <;> cases b <;> simp [or]

/-- A disjunction is false when both parts are. -/
theorem or_eq_no (a b : Truth) : a.or b = .no ↔ a = .no ∧ b = .no := by
  cases a <;> cases b <;> simp [or]

/-- All of a list is true when each of it is. -/
theorem all_eq_yes (truths : List Truth) : all truths = .yes ↔ ∀ t ∈ truths, t = .yes := by
  induction truths with
  | nil => simp [all]
  | cons t rest ih =>
    rw [List.forall_mem_cons, ← ih]
    exact and_eq_yes t (all rest)

/-- Some of a list is true when one of it is. -/
theorem any_eq_yes (truths : List Truth) : any truths = .yes ↔ ∃ t ∈ truths, t = .yes := by
  induction truths with
  | nil => simp [any]
  | cons t rest ih =>
    rw [List.exists_mem_cons_iff, ← ih]
    exact or_eq_yes t (any rest)

/-- Some of a list is false when each of it is. -/
theorem any_eq_no (truths : List Truth) : any truths = .no ↔ ∀ t ∈ truths, t = .no := by
  induction truths with
  | nil => simp [any]
  | cons t rest ih =>
    rw [List.forall_mem_cons, ← ih]
    exact or_eq_no t (any rest)

end Truth

/-- The truth of a test of a column; tests against null are never unknown. -/
def Test.truth (value : Option Json) : Test → Truth
  | .equals .null => .ofBool (Json.present? value).isNone
  | .differs .null => .ofBool (Json.present? value).isSome
  | .equals expected => .ofEquality value (some expected)
  | .differs expected => (Truth.ofEquality value (some expected)).not
  | .among values => .any (values.map fun expected => .ofEquality value (some expected))
  | .notAmong values =>
    (Truth.any (values.map fun expected => .ofEquality value (some expected))).not

/-- Whether the list of a negated membership test is without null. -/
def Test.NullFree : Test → Prop
  | .notAmong values => ∀ value ∈ values, value.isNull = false
  | _ => True

mutual

/-- No list of a negated membership test in a predicate holds a null. -/
def Predicate.NullFree : Predicate → Prop
  | .condition _ test => test.NullFree
  | .date _ _ _ => True
  | .contains _ _ => True
  | .related _ _ clause => Clause.NullFree clause
  | .count _ _ _ => True
  | .group clause => Clause.NullFree clause

/-- No list of a negated membership test in a clause holds a null. -/
def Clause.NullFree : List (Joiner × Predicate) → Prop
  | [] => True
  | (_, predicate) :: rest => predicate.NullFree ∧ Clause.NullFree rest

end

/-- The predicates of a clause without null in negated lists have none there. -/
theorem Clause.NullFree.of_mem {clause : Clause} (h : Clause.NullFree clause)
    {entry : Joiner × Predicate} (hentry : entry ∈ clause) : entry.2.NullFree := by
  induction clause with
  | nil => cases hentry
  | cons first rest ih =>
    rcases List.mem_cons.mp hentry with rfl | hrest
    · exact h.1
    · exact ih h.2 hrest

namespace Store

/-- Whether a row is outside the trash. -/
def liveTruth (r : Resource) (row : Row) : Truth :=
  match r.softDeleteColumn with
  | some column => (Test.equals .null).truth (Fields.get? row column)
  | none => .yes

/-- The live rows that a relation joins to a row. -/
def joinedRows (store : Store) (relation : Relation) (target : Resource) (row : Row) : List Row :=
  (store.rows target.name).filter fun child =>
    (liveTruth target child).and (Truth.ofEquality (Fields.get? child relation.foreignKey)
      (Fields.get? row relation.localKey)) = .yes

/-- The truth of a test of the text of a column. -/
def textTruth (row : Row) (column : String) (test : String → Bool) : Truth :=
  match (Fields.get? row column).bind Json.text? with
  | some text => .ofBool (test text)
  | none => .unknown

mutual

/-- The truth of a predicate on a row. -/
def predicateTruth (model : Model) (store : Store) (r : Resource) (row : Row) : Predicate → Truth
  | .condition column test => test.truth (Fields.get? row column)
  | .date column bound limit => textTruth row column fun text => bound.admits limit (dayOf text)
  | .contains column term => textTruth row column (containsTerm term)
  | .related name negated clause =>
    match model.related r name with
    | .ok (relation, target) =>
      .ofBool <| ((store.joinedRows relation target row).any fun child =>
        Truth.ofEntries (entryTruths model store target child clause) = .yes) != negated
    | .error _ => .unknown
  | .count name comparator count =>
    match model.related r name with
    | .ok (relation, target) =>
      .ofBool (comparator.holds (store.joinedRows relation target row).length count)
    | .error _ => .unknown
  | .group clause => Truth.ofEntries (entryTruths model store r row clause)

/-- The truth of the entries of a clause on a row. -/
def entryTruths (model : Model) (store : Store) (r : Resource) (row : Row) :
    List (Joiner × Predicate) → List (Joiner × Truth)
  | [] => []
  | (joiner, predicate) :: rest =>
    (joiner, predicateTruth model store r row predicate) :: entryTruths model store r row rest

end

/-- The truth of a clause on a row. -/
def clauseTruth (model : Model) (store : Store) (r : Resource) (row : Row) (clause : Clause) :
    Truth :=
  Truth.ofEntries (store.entryTruths model r row clause)

end Store

/-- No value agrees with null. -/
theorem Json.agrees_null_right (v : Json) : v.agrees .null = false := by
  cases v <;> rfl

/-- Equality is true when the value is there and agrees. -/
theorem Truth.ofEquality_eq_yes (a : Option Json) (v : Json) :
    ofEquality a (some v) = .yes ↔ (Json.present? a).any (fun x => x.agrees v) = true := by
  cases hnull : v.isNull with
  | true =>
    have hv : v = .null := by
      cases v with
      | null => rfl
      | _ => cases hnull
    subst hv
    cases Json.present? a <;> simp [ofEquality, Json.present?, Json.agrees_null_right]
  | false =>
    rw [ofEquality, Json.present?_eq_some_iff.mpr ⟨rfl, hnull⟩]
    cases Json.present? a with
    | none => simp
    | some x => simpa using ofBool_eq_yes (x.agrees v)

/-- Equality with a value other than null is false when the value is there and does not agree. -/
theorem Truth.ofEquality_eq_no (a : Option Json) {v : Json} (hv : v.isNull = false) :
    ofEquality a (some v) = .no ↔ (Json.present? a).any (fun x => !x.agrees v) = true := by
  rw [ofEquality, Json.present?_eq_some_iff.mpr ⟨rfl, hv⟩]
  cases Json.present? a with
  | none => simp
  | some x => simpa using ofBool_eq_no (x.agrees v)

/-- A test whose truth is unknown fails. -/
theorem Test.truth_eq_yes_iff (value : Option Json) (test : Test) (h : test.NullFree) :
    test.truth value = .yes ↔ test.passes (Json.present? value) = true := by
  cases test with
  | equals expected =>
    cases expected with
    | null => exact Truth.ofBool_eq_yes _
    | _ => exact Truth.ofEquality_eq_yes value _
  | differs expected =>
    cases expected with
    | null => exact Truth.ofBool_eq_yes _
    | _ => exact (Truth.not_eq_yes _).trans (Truth.ofEquality_eq_no value rfl)
  | among values =>
    have hmember : ∀ v, Truth.ofEquality value (some v) = .yes ↔
        (Json.present? value).any (fun x => x.agrees v) = true := Truth.ofEquality_eq_yes value
    simp only [truth, passes, Truth.any_eq_yes, List.mem_map, exists_exists_and_eq_and, hmember]
    cases Json.present? value with
    | none => simp
    | some x => simp
  | notAmong values =>
    have hmember : ∀ v ∈ values, (Truth.ofEquality value (some v) = .no ↔
        (Json.present? value).any (fun x => !x.agrees v) = true) := fun v hv =>
      Truth.ofEquality_eq_no value (h v hv)
    simp only [truth, passes, Truth.not_eq_yes, Truth.any_eq_no, List.forall_mem_map]
    rw [forall₂_congr hmember]
    -- without members the test holds of a null too; with one, a null is not told apart from it
    cases values with
    | nil => simp
    | cons v rest =>
      cases Json.present? value with
      | none =>
        constructor
        · intro hall
          simpa using hall v List.mem_cons_self
        · intro hpass
          simp at hpass
      | some x => simp

namespace Store

variable (model : Model) (store : Store) (r : Resource) (row : Row)

/-- It is true that a row is outside the trash when it is live. -/
theorem liveTruth_eq_yes : liveTruth r row = .yes ↔ Row.isLive r row = true := by
  rw [liveTruth, Row.isLive]
  cases r.softDeleteColumn with
  | none => simp
  | some column => exact Truth.ofBool_eq_yes _

/-- The rows that a relation joins are the related rows; a null joins nothing. -/
theorem joinedRows_eq_relatedRows (relation : Relation) (target : Resource) :
    store.joinedRows relation target row = store.relatedRows relation target row := by
  rw [joinedRows, relatedRows, Row.present?]
  cases hlocal : Json.present? (Fields.get? row relation.localKey) with
  | none =>
    -- a null key joins no row: equality with it is never true
    have hunknown : ∀ child : Row, Truth.ofEquality (Fields.get? child relation.foreignKey)
        (Fields.get? row relation.localKey) = .unknown := by
      intro child
      rw [Truth.ofEquality, hlocal]
      split
      · contradiction
      · rfl
    simp only [hunknown]
    apply List.filter_eq_nil_iff.mpr
    intro child _
    rw [decide_eq_true_eq, Truth.and_eq_yes]
    rintro ⟨_, hjoined⟩
    cases hjoined
  | some key =>
    apply List.filter_congr
    intro child _
    rw [Bool.eq_iff_iff, decide_eq_true_eq, Truth.and_eq_yes, liveTruth_eq_yes, Bool.and_eq_true]
    refine and_congr_right fun _ => ?_
    rw [Truth.ofEquality, hlocal]
    cases Fields.get? child relation.foreignKey with
    | none => simp [Json.present?]
    | some v =>
      cases v with
      | null => simp [Json.present?, Json.agrees_null]
      | _ => exact Truth.ofBool_eq_yes _

/-- A test of a text is true when the column has a text that passes. -/
theorem textTruth_eq_yes (column : String) (test : String → Bool) :
    textTruth row column test = .yes ↔
      ((Fields.get? row column).bind Json.text?).any test = true := by
  rw [textTruth]
  cases (Fields.get? row column).bind Json.text? with
  | none => simp
  | some text => simpa using Truth.ofBool_eq_yes (test text)

/-- The entries of a clause have the truths of their predicates. -/
theorem entryTruths_eq_map (clause : Clause) :
    store.entryTruths model r row clause =
      clause.map fun entry => (entry.1, store.predicateTruth model r row entry.2) := by
  induction clause with
  | nil => rfl
  | cons entry rest ih =>
    rw [List.map_cons, ← ih]
    rfl

/-- A clause is true when some run is true throughout, unless it is empty. -/
theorem clauseTruth_eq_yes_iff {truth : Predicate → Bool} {clause : Clause}
    (h : ∀ entry ∈ clause,
      store.predicateTruth model r row entry.2 = .yes ↔ truth entry.2 = true) :
    store.clauseTruth model r row clause = .yes ↔ Clause.value truth clause = true := by
  have hrun : ∀ run ∈ Clause.runs clause,
      (Truth.all (run.map fun entry => store.predicateTruth model r row entry.2) = .yes ↔
        (run.all fun entry => truth entry.2) = true) := by
    intro run hmem
    have hmembers : ∀ entry ∈ run, entry ∈ clause := by
      intro entry hentry
      rw [← flatten_joinedRuns (fun entry => entry.1 = .or) clause]
      exact List.mem_flatten_of_mem hmem hentry
    rw [Truth.all_eq_yes, List.forall_mem_map, List.all_eq_true]
    exact forall₂_congr fun entry hentry => h entry (hmembers entry hentry)
  rw [clauseTruth, Truth.ofEntries, entryTruths_eq_map, List.isEmpty_map, Clause.value,
    Bool.or_eq_true]
  by_cases hempty : clause.isEmpty = true
  · simp [hempty]
  · rw [if_neg hempty, Truth.any_eq_yes, joinedRuns_map, List.map_map, List.any_eq_true]
    simp only [hempty, Bool.false_eq_true, false_or, List.mem_map, exists_exists_and_eq_and,
      Function.comp_apply, List.map_map]
    exact exists_congr fun run => and_congr_right fun hmem => hrun run hmem

/-- A predicate whose relations resolve holds when it is true. -/
theorem predicateTruth_eq_yes_iff (predicate : Predicate) (hresolves : predicate.Resolves model r)
    (hnull : predicate.NullFree) :
    store.predicateTruth model r row predicate = .yes ↔
      store.holds model r row predicate = true := by
  induction predicate using Predicate.induct generalizing r row with
  | condition column test => exact Test.truth_eq_yes_iff _ test hnull
  | date column bound day => exact textTruth_eq_yes row column _
  | contains column term => exact textTruth_eq_yes row column _
  | related name negated clause ih =>
    obtain ⟨relation, target, hrelated, hclause⟩ := hresolves
    have hchild : ∀ child,
        (decide (store.clauseTruth model target child clause = .yes)) =
          Clause.value (store.holds model target child) clause := by
      intro child
      rw [Bool.eq_iff_iff, decide_eq_true_eq]
      apply clauseTruth_eq_yes_iff
      intro entry hentry
      exact ih entry hentry target child (hclause.of_mem hentry) (hnull.of_mem hentry)
    -- some row or none: the negation is of a truth value that is never unknown
    have hany := List.any_congr (rfl : store.joinedRows relation target row = _) hchild
    rw [holds_related model store r row hrelated hclause, ← joinedRows_eq_relatedRows, ← hany,
      predicateTruth, hrelated]
    exact Truth.ofBool_eq_yes _
  | count name comparator n =>
    obtain ⟨relation, target, hrelated⟩ := hresolves
    rw [holds_count model store r row hrelated, ← joinedRows_eq_relatedRows, predicateTruth,
      hrelated]
    exact Truth.ofBool_eq_yes _
  | group clause ih =>
    rw [holds_group model store r row hresolves, predicateTruth]
    apply clauseTruth_eq_yes_iff
    intro entry hentry
    exact ih entry hentry r row (hresolves.of_mem hentry) (hnull.of_mem hentry)

/-- A clause whose relations resolve, with no null in a list of a negated membership test, is
evaluated without a fault, and holds for a row exactly when it is true of it in the logic of SQL:
not when it is unknown. -/
theorem satisfies_eq_truth (clause : Clause) (hresolves : Clause.Resolves model r clause)
    (hnull : Clause.NullFree clause) :
    store.satisfies model r row clause =
      .ok (decide (store.clauseTruth model r row clause = .yes)) := by
  rw [satisfies_of_resolves model store r row clause hresolves]
  have hentries : ∀ entry ∈ clause, store.predicateTruth model r row entry.2 = .yes ↔
      store.holds model r row entry.2 = true := fun entry hentry =>
    predicateTruth_eq_yes_iff model store r row entry.2 (hresolves.of_mem hentry)
      (hnull.of_mem hentry)
  have hvalue := clauseTruth_eq_yes_iff model store r row hentries
  rw [Bool.eq_iff_iff.mpr (Iff.trans hvalue.symm (decide_eq_true_iff).symm)]

/-- A post without a title: the tests of it are unknown, and so is their disjunction, although its
negation is asked for; the test on comments is false, since a null key joins none. -/
theorem satisfies_eq_truth_journal :
    let r := Config.resolveResource Config.postsDef
    let row : Row := [("id", .null), ("title", .null), ("slug", .str "lean")]
    let store : Store := ⟨[("posts", [row]), ("comments", [[("id", .int 1), ("post_id", .null)]])]⟩
    let clause : Clause := [
      (.or, .condition "title" (.equals (.str "Lean"))),
      (.or, .condition "title" (.notAmong [.str "Lean", .int 1])),
      (.or, .condition "slug" (.among [.null, .str "other"])),
      (.or, .related "comments" false [(.and, .group [(.and, .condition "id" (.notAmong []))])])]
    Clause.Resolves Config.journal r clause ∧ Clause.NullFree clause ∧
      store.clauseTruth Config.journal r row clause = .unknown ∧
      store.satisfies Config.journal r row clause = .ok false := by
  intro r row store clause
  have hresolves : Clause.Resolves Config.journal r clause :=
    ⟨trivial, trivial, trivial, ⟨_, _, rfl, ⟨trivial, trivial⟩, trivial⟩, trivial⟩
  have hnull : Clause.NullFree clause := by
    refine ⟨trivial, ?_, trivial, ⟨⟨?_, trivial⟩, trivial⟩, trivial⟩
    · exact List.forall_mem_cons.mpr ⟨rfl, List.forall_mem_cons.mpr ⟨rfl, nofun⟩⟩
    · exact nofun
  have htruth : store.clauseTruth Config.journal r row clause = .unknown := by decide
  refine ⟨hresolves, hnull, htruth, ?_⟩
  rw [satisfies_eq_truth Config.journal store r row clause hresolves hnull, htruth]
  rfl

end Store

end Records
