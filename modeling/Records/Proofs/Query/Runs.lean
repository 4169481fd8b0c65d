import Records.Query.Clause

/-!
# Runs of a clause

A clause is a disjunction of runs: it is cut before every entry joined by `or`, the first entry
aside, and it asks for some run all of whose predicates hold.  `joinedRuns` is that cut for entries
of any kind, since filter items and constraints on counts are cut in the same way.
`Predicate.induct` is induction over predicates with a hypothesis for every member of a nested
clause.
-/

set_option autoImplicit false

namespace Records

variable {α : Type}

/-- The run of joined entries that goes on, up to the first entry that opens another, and the runs
from that one on. -/
def splitLeadingRun (opens : α → Bool) : List α → List α × List (List α)
  | [] => ([], [])
  | a :: rest =>
    let (lead, others) := splitLeadingRun opens rest
    if opens a then ([], (a :: lead) :: others) else (a :: lead, others)

/-- Joined entries cut into runs: before every entry that opens one, the first entry aside. -/
def joinedRuns (opens : α → Bool) : List α → List (List α)
  | [] => []
  | a :: rest => (a :: (splitLeadingRun opens rest).1) :: (splitLeadingRun opens rest).2

/-- The runs of a clause. -/
def Clause.runs (clause : Clause) : List Clause := joinedRuns (fun entry => entry.1 = .or) clause

/-- The truth value of a clause under truth values of its predicates: some run is true throughout,
unless the clause is empty. -/
def Clause.value (truth : Predicate → Bool) (clause : Clause) : Bool :=
  clause.isEmpty || clause.runs.any fun run => run.all fun entry => truth entry.2

/-- A list in which nothing opens a run is the leading run itself. -/
theorem splitLeadingRun_of_forall (opens : α → Bool) (l : List α)
    (h : ∀ b ∈ l, opens b = false) : splitLeadingRun opens l = (l, []) := by
  induction l with
  | nil => rfl
  | cons b rest ih =>
    have hb := h b (by simp)
    have hrest := ih fun c hc => h c (by simp [hc])
    simp [splitLeadingRun, hb, hrest]

/-- Entries of which none after the first opens a run are one run. -/
theorem joinedRuns_eq_singleton (opens : α → Bool) (a : α) (rest : List α)
    (h : ∀ b ∈ rest, opens b = false) : joinedRuns opens (a :: rest) = [a :: rest] := by
  simp [joinedRuns, splitLeadingRun_of_forall opens rest h]

/-- Mapping a list maps its leading run and the others. -/
theorem splitLeadingRun_map {β : Type} (opens : β → Bool) (f : α → β) (l : List α) :
    splitLeadingRun opens (l.map f) =
      ((splitLeadingRun (fun a => opens (f a)) l).1.map f,
        (splitLeadingRun (fun a => opens (f a)) l).2.map (List.map f)) := by
  induction l with
  | nil => rfl
  | cons a rest ih =>
    by_cases ha : opens (f a)
    · simp [splitLeadingRun, ih, ha]
    · simp [splitLeadingRun, ih, ha]

/-- The runs of mapped entries are the mapped runs. -/
theorem joinedRuns_map {β : Type} (opens : β → Bool) (f : α → β) (l : List α) :
    joinedRuns opens (l.map f) = (joinedRuns (fun a => opens (f a)) l).map (List.map f) := by
  cases l with
  | nil => rfl
  | cons a rest => simp [joinedRuns, splitLeadingRun_map]

/-- The runs together are the entries. -/
theorem flatten_joinedRuns (opens : α → Bool) (l : List α) : (joinedRuns opens l).flatten = l := by
  have hleading : ∀ rest : List α,
      (splitLeadingRun opens rest).1 ++ (splitLeadingRun opens rest).2.flatten = rest := by
    intro rest
    induction rest with
    | nil => rfl
    | cons a rest ih =>
      by_cases ha : opens a
      · simp [splitLeadingRun, ha, ih]
      · simp [splitLeadingRun, ha, ih]
  cases l with
  | nil => rfl
  | cons a rest => simp [joinedRuns, hleading]

/-- A conjunction is true when every entry is. -/
theorem Clause.value_eq_all (truth : Predicate → Bool) (clause : Clause)
    (h : ∀ entry ∈ clause, entry.1 = .and) :
    Clause.value truth clause = clause.all fun entry => truth entry.2 := by
  cases clause with
  | nil => rfl
  | cons entry rest =>
    have hrest : ∀ other ∈ rest, decide (other.1 = .or) = false := by
      intro other hother
      simp [h other (List.mem_cons_of_mem _ hother)]
    simp [value, runs, joinedRuns_eq_singleton _ entry rest hrest]

/-- A disjunction is true when it is empty or some entry is. -/
theorem Clause.value_eq_any (truth : Predicate → Bool) (clause : Clause)
    (h : ∀ entry ∈ clause, entry.1 = .or) :
    Clause.value truth clause = (clause.isEmpty || clause.any fun entry => truth entry.2) := by
  have hlead : ∀ l : Clause, (∀ entry ∈ l, entry.1 = .or) →
      splitLeadingRun (fun entry : Joiner × Predicate => entry.1 = .or) l =
        ([], l.map fun e => [e]) := by
    intro l hl
    induction l with
    | nil => rfl
    | cons entry rest ih =>
      have hrest := ih fun other hother => hl other (List.mem_cons_of_mem _ hother)
      simp [splitLeadingRun, hrest, hl entry (by simp)]
  cases clause with
  | nil => rfl
  | cons entry rest =>
    have hrest := hlead rest fun other hother => h other (List.mem_cons_of_mem _ hother)
    simp [value, runs, joinedRuns, hrest, Function.comp_def]

/-- Induction on predicates, with a hypothesis for each member of a nested clause. -/
@[elab_as_elim]
theorem Predicate.induct {motive : Predicate → Prop}
    (condition : ∀ column test, motive (.condition column test))
    (date : ∀ column bound day, motive (.date column bound day))
    (contains : ∀ column term, motive (.contains column term))
    (related : ∀ name negated clause, (∀ entry ∈ clause, motive entry.2) →
      motive (.related name negated clause))
    (count : ∀ name comparator n, motive (.count name comparator n))
    (group : ∀ clause, (∀ entry ∈ clause, motive entry.2) → motive (.group clause))
    (predicate : Predicate) : motive predicate :=
  -- the recursor has a motive for clauses and one for entries too: here, all their predicates
  @Predicate.rec motive (fun clause => ∀ entry ∈ clause, motive entry.2)
    (fun entry => motive entry.2)
    condition date contains related count group
    (fun _ h => absurd h List.not_mem_nil)
    (fun _ _ hfirst hrest entry hentry => by
      rcases List.mem_cons.mp hentry with rfl | h
      · exact hfirst
      · exact hrest entry h)
    (fun _ _ h => h)
    predicate

end Records
