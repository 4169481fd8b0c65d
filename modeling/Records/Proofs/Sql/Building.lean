import Mathlib.Algebra.Ring.Nat
import Records.Proofs.Sql.Statement

/-!
# Statements that are built

Building a condition can fail only at a relation that does not resolve, so the condition of a query
whose relations resolve is built whatever is bound before it.  A page statement of such a query then
fails exactly when a number of the page does not fit a signed 64-bit integer (`pageOf_outcome`).
-/

set_option autoImplicit false

namespace Records.Sql

variable {α β : Type}

/-- A step that gives a result whatever is bound before it. -/
def Succeeds (m : Binder α) : Prop := ∀ s, ∃ out s', m s = .ok (out, s')

namespace Succeeds

/-- A result is given without a step. -/
theorem pure (a : α) : Succeeds (Pure.pure a) := fun s => ⟨a, s, rfl⟩

/-- A step that succeeds is followed by one that succeeds on whatever it gives. -/
theorem bind {m : Binder α} {f : α → Binder β} (h : Succeeds m) (hf : ∀ a, Succeeds (f a)) :
    Succeeds (m >>= f) := by
  intro s
  obtain ⟨a, s', hm⟩ := h s
  obtain ⟨b, s'', hfa⟩ := hf a s'
  exact ⟨b, s'', (bind_of_ok hm f).trans hfa⟩

/-- What was found is passed on to a step that succeeds on it. -/
theorem liftFault_bind {result : Except Fault α} {a : α} (h : result = .ok a) {f : α → Binder β}
    (hf : Succeeds (f a)) : Succeeds (liftFault result >>= f) := by
  intro s
  obtain ⟨b, s', hfa⟩ := hf s
  have hlift : liftFault result s = .ok (a, s) := by
    rw [h]
    rfl
  exact ⟨b, s', (bind_of_ok hlift f).trans hfa⟩

/-- Values can always be bound. -/
theorem bindValue (value : BindValue) : Succeeds (bindValue value) := fun _ => ⟨_, _, rfl⟩

/-- There is always a next alias. -/
theorem freshAlias : Succeeds freshAlias := fun _ => ⟨_, _, rfl⟩

/-- The value of a column can always be bound. -/
theorem bindColumn (r : Resource) (column : String) (value : Json) :
    Succeeds (bindColumn r column value) := by
  rw [Sql.bindColumn]
  cases r.columnType? column with
  | none => exact bind (bindValue _) fun number => pure _
  | some type => exact bind (bindValue _) fun number => pure _

/-- A step that always succeeds does so along a list. -/
theorem mapM {f : α → Binder β} {l : List α} (h : ∀ a, Succeeds (f a)) : Succeeds (l.mapM f) := by
  induction l with
  | nil => exact pure []
  | cons a rest ih =>
    rw [List.mapM_cons]
    exact bind (h a) fun first => bind ih fun others => pure _

end Succeeds

/-- A test of a column can always be built. -/
theorem testCondition_succeeds (r : Resource) (owner : Alias) (column : String) (test : Test) :
    Succeeds (testCondition r owner column test) := by
  cases test with
  | equals value =>
    cases value with
    | null => exact Succeeds.pure _
    | _ => exact Succeeds.bind (Succeeds.bindColumn r column _) fun p => Succeeds.pure _
  | differs value =>
    cases value with
    | null => exact Succeeds.pure _
    | _ => exact Succeeds.bind (Succeeds.bindColumn r column _) fun p => Succeeds.pure _
  | among values =>
    rw [testCondition]
    split
    · exact Succeeds.pure _
    · exact Succeeds.bind (Succeeds.mapM (Succeeds.bindColumn r column)) fun ps => Succeeds.pure _
  | notAmong values =>
    rw [testCondition]
    split
    · exact Succeeds.pure _
    · exact Succeeds.bind (Succeeds.mapM (Succeeds.bindColumn r column)) fun ps => Succeeds.pure _

/-- A clause is built when each of its predicates is. -/
theorem clauseConditions_succeeds {model : Model} {r : Resource} {owner : Alias} {clause : Clause}
    (h : ∀ entry ∈ clause, Succeeds (predicateCondition model r owner entry.2)) :
    Succeeds (clauseConditions model r owner clause) := by
  induction clause with
  | nil => exact Succeeds.pure []
  | cons entry rest ih =>
    obtain ⟨joiner, predicate⟩ := entry
    obtain ⟨hfirst, hothers⟩ := List.forall_mem_cons.mp h
    rw [clauseConditions]
    exact Succeeds.bind hfirst fun first => Succeeds.bind (ih hothers) fun others => Succeeds.pure _

/-- The condition of a predicate whose relations resolve is built. -/
theorem predicateCondition_succeeds {model : Model} {r : Resource} {predicate : Predicate}
    (h : predicate.Resolves model r) (owner : Alias) :
    Succeeds (predicateCondition model r owner predicate) := by
  induction predicate using Predicate.induct generalizing r owner with
  | condition column test => exact testCondition_succeeds r owner column test
  | date column bound day =>
    exact Succeeds.bind (Succeeds.bindValue _) fun number => Succeeds.pure _
  | contains column term =>
    exact Succeeds.bind (Succeeds.bindValue _) fun number => Succeeds.pure _
  | related name negated clause ih =>
    obtain ⟨relation, target, hrelated, hclause⟩ := h
    rw [predicateCondition]
    refine Succeeds.liftFault_bind hrelated ?_
    refine Succeeds.bind Succeeds.freshAlias fun child => ?_
    have hinner := clauseConditions_succeeds fun entry hentry =>
      ih entry hentry (hclause.of_mem hentry) child
    exact Succeeds.bind hinner fun inner => Succeeds.pure _
  | count name comparator n =>
    obtain ⟨relation, target, hrelated⟩ := h
    rw [predicateCondition]
    refine Succeeds.liftFault_bind hrelated ?_
    refine Succeeds.bind Succeeds.freshAlias fun child => ?_
    exact Succeeds.bind (Succeeds.bindValue _) fun number => Succeeds.pure _
  | group clause ih =>
    have hclause : Clause.Resolves model r clause := h
    rw [predicateCondition]
    have hinner := clauseConditions_succeeds fun entry hentry =>
      ih entry hentry (hclause.of_mem hentry) owner
    exact Succeeds.bind hinner fun inner => Succeeds.pure _

/-- The restriction of a query whose clause resolves is built. -/
theorem restrictionOf_succeeds {model : Model} {r : Resource} {query : Query}
    (h : Clause.Resolves model r query.clause) : Succeeds (restrictionOf model r query) := by
  rw [restrictionOf]
  have hconditions := clauseConditions_succeeds fun entry hentry =>
    predicateCondition_succeeds (h.of_mem hentry) .main
  exact Succeeds.bind hconditions fun conditions => Succeeds.pure _

/-- A natural number is a signed 64-bit integer below the power of two of its sign. -/
theorem isInt64_natCast (n : Nat) : Numeral.isInt64 n = decide (n < 2 ^ 63) := by
  have hleast : Numeral.leastInt64 ≤ (n : Int) := by
    rw [Numeral.leastInt64]
    omega
  have hgreatest : (n : Int) ≤ Numeral.greatestInt64 ↔ n < 2 ^ 63 := by
    rw [Numeral.greatestInt64]
    omega
  rw [Numeral.isInt64, decide_eq_true hleast, Bool.true_and, decide_eq_decide.mpr hgreatest]

/-- A number is taken when it is a signed 64-bit integer, and faulted when it is larger. -/
theorem int64OrFault_eq (why : Invalid) (n : Nat) :
    int64OrFault why n = if 2 ^ 63 ≤ n then .error (.invalid why) else .ok (n : Int) := by
  rw [int64OrFault, isInt64_natCast]
  by_cases h : 2 ^ 63 ≤ n
  · rw [if_pos h, decide_eq_false (Nat.not_lt.mpr h)]
    rfl
  · rw [if_neg h, decide_eq_true (Nat.not_le.mp h)]
    rfl

/-- The fault of a page is that of its size, and else that of its offset. -/
theorem pagingFault_eq (paging : Paging) :
    pagingFault paging =
      if 2 ^ 63 ≤ paging.perPage then .error (.invalid .perPageTooLarge)
      else if 2 ^ 63 ≤ paging.offset then .error (.invalid .pageTooLarge)
      else .ok () := by
  rw [pagingFault, int64OrFault_eq, int64OrFault_eq]
  by_cases hperPage : 2 ^ 63 ≤ paging.perPage
  · rw [if_pos hperPage, if_pos hperPage]
    rfl
  · rw [if_neg hperPage, if_neg hperPage]
    by_cases hoffset : 2 ^ 63 ≤ paging.offset
    · rw [if_pos hoffset, if_pos hoffset]
      rfl
    · rw [if_neg hoffset, if_neg hoffset]
      rfl

section

variable {model : Model} {query : Query} {r : Resource}
  (hresource : model.requireResource query.resource = .ok r)
  (hresolves : Clause.Resolves model r query.clause)
  (heager : ∀ name ∈ query.eager, ∃ found, model.related r name = .ok found)

include hresource hresolves heager

/-- The first statement of a query that resolves is built. -/
theorem exists_firstOf_eq_ok : ∃ first, firstOf model query = .ok first := by
  obtain ⟨restriction, counted, hrestriction⟩ := restrictionOf_succeeds hresolves {}
  obtain ⟨embedded, shown, hembedded⟩ := exists_embeddedOf_eq_ok model r query.eager heager counted
  exact ⟨_, firstOf_eq_ok hresource hrestriction hembedded⟩

/-- A page statement fails only at a number that a signed 64-bit integer cannot hold. -/
theorem pageOf_outcome (paging : Paging) :
    (pageOf model query paging).map (fun _ => ()) = pagingFault paging := by
  obtain ⟨restriction, counted, hrestriction⟩ := restrictionOf_succeeds hresolves {}
  obtain ⟨embedded, shown, hembedded⟩ := exists_embeddedOf_eq_ok model r query.eager heager counted
  rw [pageOf, Outcome.bind_of_ok hresource]
  show ((restrictionOf model r query {} >>= _).map _) = _
  rw [Outcome.bind_of_ok hrestriction]
  show ((embeddedOf model r query.eager counted >>= _).map _) = _
  rw [Outcome.bind_of_ok hembedded]
  simp only [Outcome.map_bind]
  -- what comes after the two numbers cannot fail
  refine (bind_int64OrFault paging fun _ _ => rfl).trans ?_
  cases pagingFault paging <;> rfl

end

end Records.Sql
