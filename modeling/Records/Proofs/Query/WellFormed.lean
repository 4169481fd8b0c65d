import Records.Proofs.Query.Resolution

/-!
# Well-formed clauses

Every column that a clause names exists on the resource reached at that point, every relation
resolves there, no group is empty, and relations nest no deeper than allowed.
-/

set_option autoImplicit false

namespace Records

mutual

/-- A predicate on rows of a resource names what exists, its relations nested at most so deep. -/
def Predicate.WellFormed (model : Model) (r : Resource) (depth : Nat) : Predicate → Prop
  | .condition column _ => r.hasColumn column = true
  | .date column _ _ => r.hasColumn column = true
  | .contains column _ => r.hasColumn column = true
  | .related name _ clause =>
    1 ≤ depth ∧ ∃ relation target, model.related r name = .ok (relation, target) ∧
      Clause.WellFormed model target (depth - 1) clause
  | .count name _ _ => ∃ relation target, model.related r name = .ok (relation, target)
  | .group clause => clause ≠ [] ∧ Clause.WellFormed model r depth clause

/-- A clause on rows of a resource names what exists, its relations nested at most so deep. -/
def Clause.WellFormed (model : Model) (r : Resource) (depth : Nat) :
    List (Joiner × Predicate) → Prop
  | [] => True
  | (_, predicate) :: rest =>
    predicate.WellFormed model r depth ∧ Clause.WellFormed model r depth rest

end

variable (model : Model) (r : Resource) (depth : Nat)

/-- A clause is well formed exactly when each of its predicates is. -/
theorem Clause.wellFormed_iff (clause : Clause) :
    Clause.WellFormed model r depth clause ↔
      ∀ entry ∈ clause, entry.2.WellFormed model r depth := by
  induction clause with
  | nil => simp [Clause.WellFormed]
  | cons entry rest ih => simp [Clause.WellFormed, ih]

/-- Two clauses one after the other are well formed exactly when both are. -/
theorem Clause.wellFormed_append (first last : Clause) :
    Clause.WellFormed model r depth (first ++ last) ↔
      Clause.WellFormed model r depth first ∧ Clause.WellFormed model r depth last := by
  simp only [Clause.wellFormed_iff, List.forall_mem_append]

/-- A group is added only when it is not empty. -/
theorem Clause.wellFormed_addGroup (clause other : Clause) (joiner : Joiner) :
    Clause.WellFormed model r depth (Clause.addGroup clause joiner other) ↔
      Clause.WellFormed model r depth clause ∧ Clause.WellFormed model r depth other := by
  cases other with
  | nil => simp [addGroup, Clause.WellFormed]
  | cons entry rest =>
    simp [addGroup, Clause.wellFormed_append, Clause.WellFormed, Predicate.WellFormed]

variable {model r depth}

/-- A well-formed predicate resolves. -/
theorem Predicate.WellFormed.resolves {predicate : Predicate}
    (h : predicate.WellFormed model r depth) : predicate.Resolves model r := by
  induction predicate using Predicate.induct generalizing r depth with
  | condition column test => exact trivial
  | date column bound day => exact trivial
  | contains column term => exact trivial
  | count name comparator n => exact h
  | related name negated clause ih =>
    obtain ⟨_, relation, target, hrelated, hclause⟩ := h
    refine ⟨relation, target, hrelated, (Clause.resolves_iff model target clause).mpr ?_⟩
    exact fun entry hentry =>
      ih entry hentry ((Clause.wellFormed_iff model target _ clause).mp hclause entry hentry)
  | group clause ih =>
    apply (Clause.resolves_iff model r clause).mpr
    exact fun entry hentry =>
      ih entry hentry ((Clause.wellFormed_iff model r depth clause).mp h.2 entry hentry)

/-- The relations in a well-formed clause resolve. -/
theorem Clause.WellFormed.resolves {clause : Clause} (h : Clause.WellFormed model r depth clause) :
    Clause.Resolves model r clause :=
  (Clause.resolves_iff model r clause).mpr fun entry hentry =>
    ((Clause.wellFormed_iff model r depth clause).mp h entry hentry).resolves

end Records
