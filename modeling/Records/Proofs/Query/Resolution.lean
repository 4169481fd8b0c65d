import Records.Proofs.Config.Sound
import Records.Proofs.Query.Runs

/-!
# Clauses whose relations resolve

Every relation that a clause names exists on the resource reached at that point, and so does the
resource that it leads to.  Apart from that, a clause is filled when none of its groups is empty.
-/

set_option autoImplicit false

namespace Records

mutual

/-- Every relation in a predicate on rows of a resource resolves. -/
def Predicate.Resolves (model : Model) (r : Resource) : Predicate → Prop
  | .condition _ _ => True
  | .date _ _ _ => True
  | .contains _ _ => True
  | .related name _ clause =>
    ∃ relation target, model.related r name = .ok (relation, target) ∧
      Clause.Resolves model target clause
  | .count name _ _ => ∃ relation target, model.related r name = .ok (relation, target)
  | .group clause => Clause.Resolves model r clause

/-- Every relation in a clause on rows of a resource resolves. -/
def Clause.Resolves (model : Model) (r : Resource) : List (Joiner × Predicate) → Prop
  | [] => True
  | (_, predicate) :: rest => predicate.Resolves model r ∧ Clause.Resolves model r rest

end

mutual

/-- No group in a predicate is empty. -/
def Predicate.Filled : Predicate → Prop
  | .condition _ _ => True
  | .date _ _ _ => True
  | .contains _ _ => True
  | .related _ _ clause => Clause.Filled clause
  | .count _ _ _ => True
  | .group clause => clause ≠ [] ∧ Clause.Filled clause

/-- No group in a clause is empty. -/
def Clause.Filled : List (Joiner × Predicate) → Prop
  | [] => True
  | (_, predicate) :: rest => predicate.Filled ∧ Clause.Filled rest

end

/-- A clause resolves exactly when each of its predicates does. -/
theorem Clause.resolves_iff (model : Model) (r : Resource) (clause : Clause) :
    Clause.Resolves model r clause ↔ ∀ entry ∈ clause, entry.2.Resolves model r := by
  induction clause with
  | nil => simp [Clause.Resolves]
  | cons entry rest ih => simp [Clause.Resolves, ih]

/-- A clause is filled exactly when each of its predicates is. -/
theorem Clause.filled_iff (clause : Clause) :
    Clause.Filled clause ↔ ∀ entry ∈ clause, entry.2.Filled := by
  induction clause with
  | nil => simp [Clause.Filled]
  | cons entry rest ih => simp [Clause.Filled, ih]

/-- The predicates of a clause that resolves do so themselves. -/
theorem Clause.Resolves.of_mem {model : Model} {r : Resource} {clause : Clause}
    (h : Clause.Resolves model r clause) {entry : Joiner × Predicate} (hentry : entry ∈ clause) :
    entry.2.Resolves model r :=
  (Clause.resolves_iff model r clause).mp h entry hentry

/-- The predicates of a filled clause are filled themselves. -/
theorem Clause.Filled.of_mem {clause : Clause} (h : Clause.Filled clause)
    {entry : Joiner × Predicate} (hentry : entry ∈ clause) : entry.2.Filled :=
  (Clause.filled_iff clause).mp h entry hentry

/-- Two clauses one after the other resolve exactly when both do. -/
theorem Clause.resolves_append (model : Model) (r : Resource) (first last : Clause) :
    Clause.Resolves model r (first ++ last) ↔
      Clause.Resolves model r first ∧ Clause.Resolves model r last := by
  simp only [Clause.resolves_iff, List.mem_append]
  constructor
  · intro h
    exact ⟨fun entry hentry => h entry (.inl hentry), fun entry hentry => h entry (.inr hentry)⟩
  · rintro ⟨hfirst, hlast⟩ entry (hentry | hentry)
    · exact hfirst entry hentry
    · exact hlast entry hentry

end Records
