import Records.Proofs.Query.Resolution
import Records.Store.Read

/-!
# What evaluation computes

Where no predicate of a clause faults, the evaluator, which leaves a run at its first predicate that
fails, computes the disjunction of the runs (`satisfies_eq_value`).  Evaluation never faults on a
clause whose relations resolve (`satisfies_of_resolves`).
-/

set_option autoImplicit false

namespace Records

/-- Whether a relation joins a row to a live row of its target. -/
def Row.isJoined (relation : Relation) (target : Resource) (row child : Row) : Bool :=
  Row.isLive target child && (Row.present? row relation.localKey).any fun key =>
    (Fields.get? child relation.foreignKey).any fun value => value.agrees key

namespace Store

variable (model : Model) (store : Store) (r : Resource) (row : Row)

/-- The related rows of a row are those that the relation joins to it, in the order in which they
are stored. -/
theorem relatedRows_eq_filter (relation : Relation) (target : Resource) :
    store.relatedRows relation target row =
      (store.rows target.name).filter (Row.isJoined relation target row) := by
  rw [relatedRows]
  cases hkey : Row.present? row relation.localKey with
  | none =>
    symm
    apply List.filter_eq_nil_iff.mpr
    intro child _
    simp [Row.isJoined, hkey]
  | some key =>
    apply List.filter_congr
    intro child _
    rw [Row.isJoined, hkey]
    cases Fields.get? child relation.foreignKey <;> rfl

/-- Whether a test passes, a fault counting as failure. -/
def passes : Except Fault Bool → Bool
  | .ok b => b
  | .error _ => false

/-- Whether a predicate holds for a row. -/
def holds (predicate : Predicate) : Bool :=
  passes (store.satisfiesPredicate model r row predicate)

/-- Evaluation that has come some way into a clause holds when it has held so far, when the run it
is in holds to its end, or when a later run does. -/
theorem satisfiesFrom_eq (truth : Predicate → Bool) (reached run : Bool) (rest : Clause)
    (h : ∀ entry ∈ rest, store.satisfiesPredicate model r row entry.2 = .ok (truth entry.2)) :
    store.satisfiesFrom model r row reached run rest =
      .ok (reached ||
        (run &&
          (splitLeadingRun (fun entry => entry.1 = .or) rest).1.all fun entry => truth entry.2) ||
        (splitLeadingRun (fun entry => entry.1 = .or) rest).2.any fun run =>
          run.all fun entry => truth entry.2) := by
  -- `reached` and `run` change at every entry, so the claim is about all of them
  induction rest generalizing reached run with
  | nil => simp [satisfiesFrom, splitLeadingRun]
  | cons entry rest ih =>
    obtain ⟨joiner, predicate⟩ := entry
    have hfirst : store.satisfiesPredicate model r row predicate = .ok (truth predicate) :=
      h (joiner, predicate) (by simp)
    have hrest := fun reached run =>
      ih reached run fun entry hentry => h entry (List.mem_cons_of_mem _ hentry)
    cases joiner with
    | and => cases run <;> simp [satisfiesFrom, splitLeadingRun, hfirst, hrest, bind, Except.bind]
    | or => simp [satisfiesFrom, splitLeadingRun, hfirst, hrest, bind, Except.bind, Bool.or_assoc]

/-- A clause none of whose predicates faults has the value of its runs. -/
theorem satisfies_eq_value (truth : Predicate → Bool) (clause : Clause)
    (h : ∀ entry ∈ clause, store.satisfiesPredicate model r row entry.2 = .ok (truth entry.2)) :
    store.satisfies model r row clause = .ok (Clause.value truth clause) := by
  cases clause with
  | nil => rfl
  | cons entry rest =>
    obtain ⟨joiner, predicate⟩ := entry
    have hfirst : store.satisfiesPredicate model r row predicate = .ok (truth predicate) :=
      h (joiner, predicate) (by simp)
    rw [satisfies, hfirst]
    show store.satisfiesFrom model r row false (truth predicate) rest = _
    rw [satisfiesFrom_eq model store r row truth _ _ rest
      fun entry hentry => h entry (List.mem_cons_of_mem _ hentry)]
    simp [Clause.value, Clause.runs, joinedRuns]

variable {model store r row} in
/-- Two stores that agree on the predicates of a clause agree on the clause. -/
theorem satisfies_congr {other : Store} (clause : Clause)
    (h : ∀ entry ∈ clause, store.satisfiesPredicate model r row entry.2 =
      other.satisfiesPredicate model r row entry.2) :
    store.satisfies model r row clause = other.satisfies model r row clause := by
  -- stated for any progress, as evaluation carries it along the clause
  have hfrom : ∀ (rest : Clause) (reached run : Bool),
      (∀ entry ∈ rest, store.satisfiesPredicate model r row entry.2 =
        other.satisfiesPredicate model r row entry.2) →
      store.satisfiesFrom model r row reached run rest =
        other.satisfiesFrom model r row reached run rest := by
    intro rest
    induction rest with
    | nil => exact fun _ _ _ => rfl
    | cons entry rest ih =>
      intro reached run hrest
      obtain ⟨joiner, predicate⟩ := entry
      have hfirst := hrest (joiner, predicate) (by simp)
      have hothers := fun reached run =>
        ih reached run fun later hlater => hrest later (List.mem_cons_of_mem _ hlater)
      simp only at hfirst
      simp only [satisfiesFrom, hfirst, hothers]
  cases clause with
  | nil => rfl
  | cons entry rest =>
    obtain ⟨joiner, predicate⟩ := entry
    have hfirst := h (joiner, predicate) (by simp)
    have hothers := fun reached run =>
      hfrom rest reached run fun later hlater => h later (List.mem_cons_of_mem _ hlater)
    simp only at hfirst
    simp only [satisfies, hfirst, hothers]

/-- A search with a test that does not fail finds what the truth values say. -/
theorem anyM_eq_any {α : Type} (test : α → Except Fault Bool) (truth : α → Bool) (l : List α)
    (h : ∀ a ∈ l, test a = .ok (truth a)) : l.anyM test = .ok (l.any truth) := by
  induction l with
  | nil => rfl
  | cons a rest ih =>
    have hrest := ih fun b hb => h b (List.mem_cons_of_mem _ hb)
    rw [List.anyM, h a (by simp)]
    cases hta : truth a with
    | true => simp [hta, bind, Except.bind, pure, Except.pure]
    | false => simpa [hta, bind, Except.bind] using hrest

/-- A predicate that is evaluated without a fault holds as evaluation says. -/
theorem ok_holds_of_ok {predicate : Predicate} {b : Bool}
    (h : store.satisfiesPredicate model r row predicate = .ok b) :
    store.satisfiesPredicate model r row predicate = .ok (store.holds model r row predicate) := by
  rw [holds, h]
  rfl

/-- A test on related rows whose clause does not fault on any of them: some related row has a true
clause, or with `negated` none has. -/
theorem satisfiesPredicate_related {name : String} (negated : Bool) {clause : Clause}
    {relation : Relation} {target : Resource} (truth : Row → Bool)
    (hrelated : model.related r name = .ok (relation, target))
    (hchild : ∀ child, store.satisfies model target child clause = .ok (truth child)) :
    store.satisfiesPredicate model r row (.related name negated clause) =
      .ok ((store.relatedRows relation target row).any truth != negated) := by
  have hany := anyM_eq_any _ truth (store.relatedRows relation target row) fun child _ =>
    hchild child
  rw [satisfiesPredicate, Outcome.bind_of_ok hrelated]
  exact Outcome.bind_of_ok hany _

/-- A count does not fault when its relation resolves. -/
theorem satisfiesPredicate_count {name : String} (comparator : CountComparator) (n : Int)
    {relation : Relation} {target : Resource}
    (hrelated : model.related r name = .ok (relation, target)) :
    store.satisfiesPredicate model r row (.count name comparator n) =
      .ok (comparator.holds (store.relatedRows relation target row).length n) := by
  rw [satisfiesPredicate, Outcome.bind_of_ok hrelated]
  rfl

/-- A predicate whose relations resolve does not fault. -/
theorem satisfiesPredicate_of_resolves (predicate : Predicate) (h : predicate.Resolves model r) :
    store.satisfiesPredicate model r row predicate =
      .ok (store.holds model r row predicate) := by
  induction predicate using Predicate.induct generalizing r row with
  | condition column test => rfl
  | date column bound day => rfl
  | contains column term => rfl
  | related name negated clause ih =>
    obtain ⟨relation, target, hrelated, hclause⟩ := h
    -- the related rows are rows of another resource, for which the hypothesis holds as well
    have hchild : ∀ child, store.satisfies model target child clause =
        .ok (Clause.value (store.holds model target child) clause) := by
      intro child
      apply satisfies_eq_value
      intro entry hentry
      exact ih entry hentry target child (hclause.of_mem hentry)
    exact ok_holds_of_ok model store r row
      (satisfiesPredicate_related model store r row negated _ hrelated hchild)
  | count name comparator n =>
    obtain ⟨relation, target, hrelated⟩ := h
    exact ok_holds_of_ok model store r row
      (satisfiesPredicate_count model store r row comparator n hrelated)
  | group clause ih =>
    apply ok_holds_of_ok
    rw [satisfiesPredicate]
    apply satisfies_eq_value
    intro entry hentry
    exact ih entry hentry r row (h.of_mem hentry)

/-- A clause whose relations resolve does not fault, and has the value of its runs. -/
theorem satisfies_of_resolves (clause : Clause) (h : Clause.Resolves model r clause) :
    store.satisfies model r row clause = .ok (Clause.value (store.holds model r row) clause) := by
  apply satisfies_eq_value
  intro entry hentry
  exact satisfiesPredicate_of_resolves model store r row entry.2 (h.of_mem hentry)

/-- A predicate on related rows holds when the clause does on some live related row, or on none when
it is negated. -/
theorem holds_related {name : String} {negated : Bool} {clause : Clause} {relation : Relation}
    {target : Resource} (hrelated : model.related r name = .ok (relation, target))
    (hclause : Clause.Resolves model target clause) :
    store.holds model r row (.related name negated clause) =
      (((store.relatedRows relation target row).any fun child =>
        Clause.value (store.holds model target child) clause) != negated) := by
  have hchild := fun child => satisfies_of_resolves model store target child clause hclause
  rw [holds, satisfiesPredicate_related model store r row negated _ hrelated hchild]
  rfl

/-- A bound on a count holds when the number of live related rows is within it. -/
theorem holds_count {name : String} {comparator : CountComparator} {n : Int}
    {relation : Relation} {target : Resource}
    (hrelated : model.related r name = .ok (relation, target)) :
    store.holds model r row (.count name comparator n) =
      comparator.holds (store.relatedRows relation target row).length n := by
  rw [holds, satisfiesPredicate_count model store r row comparator n hrelated]
  rfl

/-- A group holds when its clause does. -/
theorem holds_group {clause : Clause} (h : Clause.Resolves model r clause) :
    store.holds model r row (.group clause) = Clause.value (store.holds model r row) clause := by
  rw [holds, satisfiesPredicate, satisfies_of_resolves model store r row clause h]
  rfl

end Store

end Records
