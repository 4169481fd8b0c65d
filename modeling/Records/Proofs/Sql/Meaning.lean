import Records.Proofs.Outcome
import Records.Proofs.Query.Resolution
import Records.Proofs.Sql.Comparison

/-!
# The meaning of a condition

`predicateMeaning` and `clauseMeaning` give the truth value of a clause on a row, from truth values
of its comparisons: a clause is true when some run of it is true throughout, and a test on related
rows asks for a row that is tied to the given one, lies outside the trash and satisfies the nested
clause.  They number placeholders and aliases as the statement does, since a comparison is known by
its text.

`clause_reads` shows that the text of the clause, read back by the grammar, has that truth value.
-/

set_option autoImplicit false

namespace Records.Sql

variable {ρ : Type} (I : Interpretation ρ)

/-- Whether a row passes the test on a trash mark, if there is one. -/
def markHolds (mark : Option (ColumnRef × Bool)) (row : ρ) : Bool :=
  mark.all fun mark => I.holds row (tokens (trashText mark))

/-- The truth value of a clause: some run is true throughout, unless the clause is empty. -/
def runsHold (values : List (Joiner × (ρ → Bool))) (row : ρ) : Bool :=
  values.isEmpty ||
    (joinedRuns (fun entry => entry.1 = .or) values).any fun run => run.all fun entry => entry.2 row

/-- The rows that a scope goes through, seen from a row. -/
def Scope.rows (s : Scope) (row : ρ) : List ρ :=
  I.rows (tokens ("1 FROM ".toList ++ s.table.text ++ ' ' :: s.child.text)) row

/-- The truth value of a comparison. -/
def comparisonMeaning (model : Model) (r : Resource) (owner : Alias) (predicate : Predicate) :
    Binder (ρ → Bool) := do
  let condition ← predicateCondition model r owner predicate
  return fun row => I.holds row (tokens condition.text)

mutual

/-- The truth value of a predicate on the rows that an alias stands for. -/
def predicateMeaning (model : Model) (r : Resource) (owner : Alias) :
    Predicate → Binder (ρ → Bool)
  | .condition column test => comparisonMeaning I model r owner (.condition column test)
  | .date column bound day => comparisonMeaning I model r owner (.date column bound day)
  | .contains column term => comparisonMeaning I model r owner (.contains column term)
  | .related name negated clause => do
    let (relation, target) ← liftFault (model.related r name)
    let child ← freshAlias
    let inner ← clauseMeaning model target child clause
    let scope := scopeOf relation target owner child
    return fun row => negated != (scope.rows I row).any fun other =>
      I.holds other (tokens scope.correlation) && (markHolds I scope.mark other &&
        runsHold inner other)
  | .count name comparator count => comparisonMeaning I model r owner (.count name comparator count)
  | .group clause => do
    let inner ← clauseMeaning model r owner clause
    return runsHold inner

/-- The truth values of the entries of a clause. -/
def clauseMeaning (model : Model) (r : Resource) (owner : Alias) :
    List (Joiner × Predicate) → Binder (List (Joiner × (ρ → Bool)))
  | [] => return []
  | (joiner, predicate) :: rest => do
    let first ← predicateMeaning model r owner predicate
    let rest ← clauseMeaning model r owner rest
    return (joiner, first) :: rest

end

/-- The trash mark of a resource, with whether a query wants it set. -/
def markOf (r : Resource) (trashed : Trashed) : Option (ColumnRef × Bool) :=
  r.softDeleteColumn.map fun column => (⟨.main, column⟩, trashed = .only)

/-- The truth value of a query on a row: the test on the trash mark, and the clause. -/
def queryMeaning (model : Model) (r : Resource) (query : Query) : Binder (ρ → Bool) := do
  let values ← clauseMeaning I model r .main query.clause
  return fun row => markHolds I (markOf r query.trashed) row && runsHold values row

/-- A text that is read as one factor, with its truth value. -/
def FactorText (text : List Char) (value : ρ → Bool) : Prop :=
  ∃ ts, Reads text ts ∧ IsFactor I ts value

/-- A text that is read as one conjunction, with its truth value. -/
def ConjunctionText (text : List Char) (value : ρ → Bool) : Prop :=
  ∃ ts, Reads text ts ∧ IsConjunction I ts value

/-- A text that is read as one disjunction, with its truth value. -/
def DisjunctionText (text : List Char) (value : ρ → Bool) : Prop :=
  ∃ ts, Reads text ts ∧ IsDisjunction I ts value

section

variable {I} {a b : List Char} {u v : ρ → Bool}

/-- The text of a factor alone is that of a conjunction. -/
theorem FactorText.conjunction (h : FactorText I a u) : ConjunctionText I a u := by
  obtain ⟨ts, hreads, hfactor⟩ := h
  exact ⟨ts, hreads, hfactor.conjunction⟩

/-- The text of a conjunction alone is that of a disjunction. -/
theorem ConjunctionText.disjunction (h : ConjunctionText I a u) : DisjunctionText I a u := by
  obtain ⟨ts, hreads, hconjunction⟩ := h
  exact ⟨ts, hreads, hconjunction.disjunction⟩

/-- The texts of a factor and of a conjunction with `AND` between them read as a conjunction. -/
theorem FactorText.and (h : FactorText I a u) (hothers : ConjunctionText I b v) :
    ConjunctionText I (a ++ (" AND ".toList ++ b)) fun row => u row && v row := by
  obtain ⟨ts, hreads, hfactor⟩ := h
  obtain ⟨us, hothers, hconjunction⟩ := hothers
  exact ⟨_, hreads.append rfl (closes_and.append hothers), hfactor.and hconjunction⟩

/-- The texts of a conjunction and of a disjunction with `OR` between them read as a disjunction. -/
theorem ConjunctionText.or (h : ConjunctionText I a u) (hothers : DisjunctionText I b v) :
    DisjunctionText I (a ++ (" OR ".toList ++ b)) fun row => u row || v row := by
  obtain ⟨ts, hreads, hconjunction⟩ := h
  obtain ⟨us, hothers, hdisjunction⟩ := hothers
  exact ⟨_, hreads.append rfl (closes_or.append hothers), hconjunction.or hdisjunction⟩

/-- The text of a disjunction in parentheses reads as a factor. -/
theorem DisjunctionText.parenthesized (h : DisjunctionText I a u) :
    FactorText I ('(' :: (a ++ [')'])) u := by
  obtain ⟨ts, hreads, hdisjunction⟩ := h
  have hopen : Closes ['('] [.sign '('] := rfl
  have hclosed := hreads.append_closes rfl closes_parenthesis
  exact ⟨_, hopen.append hclosed.reads, hdisjunction.parenthesized⟩

/-- The text of a comparison reads as a factor. -/
theorem FactorText.of_comparison (h : ReadsAs IsComparison a) :
    FactorText I a fun row => I.holds row (tokens a) := by
  obtain ⟨ts, hreads, hcomparison⟩ := h
  rw [tokens_of_reads hreads]
  exact ⟨ts, hreads, hcomparison.factor⟩

/-- What may follow a factor in a conjunction: nothing, or `AND` and the other factors. -/
def Continues (I : Interpretation ρ) (text : List Char) (value : ρ → Bool) : Prop :=
  (text = [] ∧ value = fun _ => true) ∨
    ∃ others, text = " AND ".toList ++ others ∧ ConjunctionText I others value

/-- A factor with what may follow it reads as a conjunction. -/
theorem FactorText.continued (h : FactorText I a u) (hrest : Continues I b v) :
    ConjunctionText I (a ++ b) fun row => u row && v row := by
  rcases hrest with ⟨rfl, rfl⟩ | ⟨others, rfl, hothers⟩
  · simpa using h.conjunction
  · exact h.and hothers

/-- The test on a trash mark may follow a factor, and more may follow it. -/
theorem Continues.mark (mark : Option (ColumnRef × Bool)) (hrest : Continues I b v) :
    Continues I (markText mark ++ b) fun row => markHolds I mark row && v row := by
  cases mark with
  | none => simpa [markText, markHolds] using hrest
  | some mark =>
    have hmark := FactorText.of_comparison (I := I) (mark_comparison mark)
    refine .inr ⟨trashText mark ++ b, ?_, hmark.continued hrest⟩
    rw [markText, List.append_assoc]

/-- A condition and the value of its predicate, under one joiner. -/
def EntryText (I : Interpretation ρ) (condition : Joiner × Condition)
    (value : Joiner × (ρ → Bool)) : Prop :=
  condition.1 = value.1 ∧ FactorText I condition.2.text value.2

/-- Conditions after a first factor: the factor goes on to the first entry joined by `or`, and a
disjunction of the later runs follows, if there are any. -/
theorem tailText_reads {conditions : List (Joiner × Condition)}
    {values : List (Joiner × (ρ → Bool))} (h : List.Forall₂ (EntryText I) conditions values)
    (hfirst : FactorText I a u) :
    let runs := splitLeadingRun (fun entry : Joiner × (ρ → Bool) => entry.1 = .or) values
    (runs.2 = [] ∧ ConjunctionText I (a ++ tailText conditions)
        fun row => u row && runs.1.all fun entry => entry.2 row) ∨
      runs.2 ≠ [] ∧ ∃ first others,
        a ++ tailText conditions = first ++ (" OR ".toList ++ others) ∧
        ConjunctionText I first (fun row => u row && runs.1.all fun entry => entry.2 row) ∧
        DisjunctionText I others fun row =>
          runs.2.any fun run => run.all fun entry => entry.2 row := by
  -- each entry is the first factor for the entries after it
  induction h generalizing a u with
  | nil =>
    left
    refine ⟨rfl, ?_⟩
    show ConjunctionText I (a ++ []) _
    simpa [splitLeadingRun] using hfirst.conjunction
  | cons hentry _ ih =>
    rename_i condition value conditions values _
    obtain ⟨joiner, condition⟩ := condition
    obtain ⟨joiner', value⟩ := value
    obtain ⟨hjoiner, hvalue⟩ := hentry
    cases hjoiner
    have hothers := ih hvalue
    cases joiner with
    | and =>
      have htail : tailText ((Joiner.and, condition) :: conditions) =
        " AND ".toList ++ (condition.text ++ tailText conditions) := rfl
      rw [htail]
      simp only [splitLeadingRun, reduceCtorEq, decide_false, Bool.false_eq_true, if_false,
        List.all_cons]
      rcases hothers with ⟨hruns, hrest⟩ | ⟨hruns, first, others, htext, hrun, hlater⟩
      · exact .inl ⟨hruns, hfirst.and hrest⟩
      · refine .inr ⟨hruns, a ++ (" AND ".toList ++ first), others, ?_, hfirst.and hrun, hlater⟩
        rw [htext, List.append_assoc, List.append_assoc]
    | or =>
      have htail : tailText ((Joiner.or, condition) :: conditions) =
        " OR ".toList ++ (condition.text ++ tailText conditions) := rfl
      rw [htail]
      simp only [splitLeadingRun, decide_true, if_true, List.all_nil, Bool.and_true, List.any_cons,
        List.all_cons]
      refine .inr ⟨List.cons_ne_nil _ _, a, _, rfl, hfirst.conjunction, ?_⟩
      rcases hothers with ⟨hruns, hrest⟩ | ⟨_, first, others, htext, hrun, hlater⟩
      · rw [hruns]
        simpa using hrest.disjunction
      · rw [htext]
        exact hrun.or hlater

/-- A clause holds when its first entry does with the rest of its run, or when a later run does. -/
theorem runsHold_cons (value : Joiner × (ρ → Bool)) (values : List (Joiner × (ρ → Bool)))
    (row : ρ) :
    runsHold (value :: values) row =
      ((value.2 row &&
          (splitLeadingRun (fun entry : Joiner × (ρ → Bool) => entry.1 = .or) values).1.all
            fun entry => entry.2 row) ||
        (splitLeadingRun (fun entry : Joiner × (ρ → Bool) => entry.1 = .or) values).2.any
          fun run => run.all fun entry => entry.2 row) := by
  simp [runsHold, joinedRuns]

/-- A chain of conditions is read as a disjunction of its runs. -/
theorem chainText_reads {conditions : List (Joiner × Condition)}
    {values : List (Joiner × (ρ → Bool))} (h : List.Forall₂ (EntryText I) conditions values)
    (hfilled : conditions ≠ []) : DisjunctionText I (chainText conditions) (runsHold values) := by
  cases h with
  | nil => exact absurd rfl hfilled
  | cons hentry hrest =>
    rename_i condition value conditions values
    obtain ⟨joiner, condition⟩ := condition
    have hvalue : runsHold (value :: values) = _ := funext (runsHold_cons value values)
    have htext : chainText ((joiner, condition) :: conditions) =
      condition.text ++ tailText conditions := rfl
    rw [hvalue, htext]
    rcases tailText_reads hrest hentry.2 with
      ⟨hruns, hall⟩ | ⟨_, first, others, htext, hrun, hlater⟩
    · rw [hruns]
      simpa using hall.disjunction
    · rw [htext]
      exact hrun.or hlater

/-- A chain without a disjunction is read as a conjunction. -/
theorem chainText_reads_conjunction {conditions : List (Joiner × Condition)}
    {values : List (Joiner × (ρ → Bool))} (h : List.Forall₂ (EntryText I) conditions values)
    (hfilled : conditions ≠ []) (hplain : isDisjunctive conditions = false) :
    ConjunctionText I (chainText conditions) (runsHold values) := by
  cases h with
  | nil => exact absurd rfl hfilled
  | cons hentry hrest =>
    rename_i condition value conditions values
    have hlead : splitLeadingRun (fun entry : Joiner × (ρ → Bool) => entry.1 = .or) values =
        (values, []) := by
      apply splitLeadingRun_of_forall
      intro entry hentry
      obtain ⟨other, hother, hsame⟩ := Outcome.exists_of_forall₂_right hrest hentry
      have hjoiner := List.any_eq_false.mp hplain other hother
      simpa [hsame.1] using hjoiner
    have hvalue : runsHold (value :: values) = _ := funext (runsHold_cons value values)
    have htext : chainText (condition :: conditions) =
      condition.2.text ++ tailText conditions := rfl
    rw [hvalue, htext, hlead]
    rcases tailText_reads hrest hentry.2 with ⟨_, hall⟩ | ⟨hruns, _⟩
    · rw [hlead] at hall
      simpa using hall
    · rw [hlead] at hruns
      exact absurd rfl hruns

/-- The types of a resource with plain types are plain. -/
theorem columnType?_isPlain {r : Resource} (hplain : HasPlainTypes r) {name type : String}
    (h : r.columnType? name = some type) : isPlainType type := by
  rw [Resource.columnType?, Option.bind_eq_some_iff] at h
  obtain ⟨column, hcolumn, htype⟩ := h
  have hall := hplain column (List.mem_of_find?_eq_some hcolumn)
  rw [htype] at hall
  exact hall

/-- Binding the value of a column gives a placeholder with a plain cast. -/
theorem exists_bindColumn_eq_ok {r : Resource} (hplain : HasPlainTypes r) (column : String)
    (value : Json) (s : Bindings) :
    ∃ p s', bindColumn r column value s = .ok (p, s') ∧ p.HasPlainCast := by
  rw [bindColumn]
  cases htype : r.columnType? column with
  | none =>
    refine ⟨_, _, rfl, ?_⟩
    intro type hcast
    cases hcast
  | some type =>
    refine ⟨_, _, rfl, ?_⟩
    intro other hcast
    cases hcast
    exact columnType?_isPlain hplain htype

/-- Behind a step that gives a result the next one goes on with it. -/
theorem bind_of_ok {α β : Type} {m : Binder α} {s s' : Bindings} {out : α}
    (h : m s = .ok (out, s')) (f : α → Binder β) : (m >>= f) s = f out s' := by
  show (m s >>= fun out => f out.1 out.2) = _
  rw [h]
  rfl

/-- Binding values of a column gives placeholders with plain casts. -/
theorem exists_mapM_bindColumn_eq_ok {r : Resource} (hplain : HasPlainTypes r) (column : String)
    (values : List Json) (s : Bindings) :
    ∃ ps s', values.mapM (bindColumn r column) s = .ok (ps, s') ∧ ∀ p ∈ ps, p.HasPlainCast := by
  induction values generalizing s with
  | nil => exact ⟨[], s, rfl, by simp⟩
  | cons value rest ih =>
    obtain ⟨p, s', hp, hcast⟩ := exists_bindColumn_eq_ok hplain column value s
    obtain ⟨ps, s'', hps, hcasts⟩ := ih s'
    refine ⟨p :: ps, s'', ?_, List.forall_mem_cons.mpr ⟨hcast, hcasts⟩⟩
    rw [List.mapM_cons, bind_of_ok hp, bind_of_ok hps]
    rfl

/-- A test for a value is built and is one comparison. -/
theorem exists_equals_eq_ok {r : Resource} (hplain : HasPlainTypes r) (column : ColumnRef)
    (negated : Bool) (value : Json) (s : Bindings) :
    ∃ condition s',
      (do return .equals column negated (← bindColumn r column.column value) : Binder Condition) s =
        .ok (condition, s') ∧ ReadsAs IsComparison condition.text := by
  obtain ⟨p, s', hp, hcast⟩ := exists_bindColumn_eq_ok hplain column.column value s
  exact ⟨_, s', bind_of_ok hp _, equals_comparison column negated p hcast⟩

/-- A test for values of a list is built and is one comparison. -/
theorem exists_member_eq_ok {r : Resource} (hplain : HasPlainTypes r) (column : ColumnRef)
    (negated : Bool) (values : List Json) (s : Bindings) :
    ∃ condition s',
      (do
        let ps ← values.mapM (bindColumn r column.column)
        return .member column negated ps : Binder Condition) s = .ok (condition, s') ∧
        ReadsAs IsComparison condition.text := by
  obtain ⟨ps, s', hps, hcasts⟩ := exists_mapM_bindColumn_eq_ok hplain column.column values s
  exact ⟨_, s', bind_of_ok hps _, member_comparison column negated ps hcasts⟩

/-- The condition of a test is a comparison. -/
theorem exists_testCondition_eq_ok {r : Resource} (hplain : HasPlainTypes r) (owner : Alias)
    (column : String) (test : Test) (s : Bindings) :
    ∃ condition s', testCondition r owner column test s = .ok (condition, s') ∧
      ReadsAs IsComparison condition.text := by
  cases test with
  | equals value =>
    cases value with
    | null => exact ⟨_, s, rfl, isNull_comparison ⟨owner, column⟩ false⟩
    | _ => exact exists_equals_eq_ok hplain ⟨owner, column⟩ false _ s
  | differs value =>
    cases value with
    | null => exact ⟨_, s, rfl, isNull_comparison ⟨owner, column⟩ true⟩
    | _ => exact exists_equals_eq_ok hplain ⟨owner, column⟩ true _ s
  | among values =>
    cases values with
    | nil => exact ⟨_, s, rfl, constant_comparison false⟩
    | cons value rest => exact exists_member_eq_ok hplain ⟨owner, column⟩ false (value :: rest) s
  | notAmong values =>
    cases values with
    | nil => exact ⟨_, s, rfl, constant_comparison true⟩
    | cons value rest => exact exists_member_eq_ok hplain ⟨owner, column⟩ true (value :: rest) s

/-- What is known of a predicate once its condition is built. -/
def PredicateReads (I : Interpretation ρ) (model : Model) (r : Resource) (owner : Alias)
    (predicate : Predicate) : Prop :=
  ∀ s, ∃ condition value s', predicateCondition model r owner predicate s = .ok (condition, s') ∧
    predicateMeaning I model r owner predicate s = .ok (value, s') ∧
    FactorText I condition.text value

/-- The conditions of a clause and its truth values are built together when those of its predicates
are. -/
theorem exists_clauseConditions_eq_ok {model : Model} {r : Resource} {owner : Alias}
    (clause : Clause) (h : ∀ entry ∈ clause, PredicateReads I model r owner entry.2)
    (s : Bindings) :
    ∃ conditions values s', clauseConditions model r owner clause s = .ok (conditions, s') ∧
      clauseMeaning I model r owner clause s = .ok (values, s') ∧
      List.Forall₂ (EntryText I) conditions values ∧ conditions.length = clause.length := by
  -- each predicate starts from the bindings that the ones before it leave, in text and in meaning
  induction clause generalizing s with
  | nil => exact ⟨[], [], s, rfl, rfl, .nil, rfl⟩
  | cons entry rest ih =>
    obtain ⟨joiner, predicate⟩ := entry
    obtain ⟨hfirst, hothers⟩ := List.forall_mem_cons.mp h
    obtain ⟨condition, value, s', hcondition, hvalue, htext⟩ := hfirst s
    obtain ⟨conditions, values, s'', hconditions, hvalues, htexts, hlength⟩ := ih hothers s'
    refine ⟨(joiner, condition) :: conditions, (joiner, value) :: values, s'', ?_, ?_, ?_, ?_⟩
    · rw [clauseConditions, bind_of_ok hcondition, bind_of_ok hconditions]
      rfl
    · rw [clauseMeaning, bind_of_ok hvalue, bind_of_ok hvalues]
      rfl
    · exact .cons ⟨rfl, htext⟩ htexts
    · rw [List.length_cons, List.length_cons, hlength]

/-- What follows the test on the trash in a select of related rows. -/
theorem inner_continues {conditions : List (Joiner × Condition)}
    {values : List (Joiner × (ρ → Bool))} (h : List.Forall₂ (EntryText I) conditions values) :
    Continues I
      (if conditions.isEmpty then [] else " AND (".toList ++ chainText conditions ++ [')'])
      (runsHold values) := by
  cases h with
  | nil => exact .inl ⟨rfl, rfl⟩
  | cons hentry hrest =>
    have hchain := chainText_reads (.cons hentry hrest) (List.cons_ne_nil _ _)
    exact .inr ⟨_, rfl, hchain.parenthesized.conjunction⟩

/-- The text of a test for a related row, the conditions on it in parentheses. -/
theorem existsRow_text (negated : Bool) (scope : Scope) (inner : List (Joiner × Condition)) :
    (Condition.existsRow negated scope inner).text =
      (if negated then "NOT ".toList else []) ++ "EXISTS (SELECT 1".toList ++ scope.source
        ++ (if inner.isEmpty then [] else " AND (".toList ++ chainText inner ++ [')']) ++ [')'] :=
  rfl

/-- A test for a related row holds, or does not when negated, as some row of the scope passes its
conditions. -/
theorem existsRow_reads (negated : Bool) (scope : Scope) {conditions : List (Joiner × Condition)}
    {values : List (Joiner × (ρ → Bool))} (h : List.Forall₂ (EntryText I) conditions values) :
    FactorText I (Condition.existsRow negated scope conditions).text fun row =>
      negated != (scope.rows I row).any fun other =>
        I.holds other (tokens scope.correlation) && (markHolds I scope.mark other &&
          runsHold values other) := by
  have hcorrelation := FactorText.of_comparison (I := I) (correlation_comparison scope)
  obtain ⟨ts, hreads, hconjunction⟩ :=
    hcorrelation.continued (Continues.mark scope.mark (inner_continues h))
  have hselect : Reads "EXISTS (SELECT 1".toList
      [.word "EXISTS".toList, .sign '(', .word "SELECT".toList, .word "1".toList] :=
    ⟨_, _, _, rfl, rfl, rfl⟩
  have hrelated := hselect.append rfl (reads_rows scope hreads)
  have hexists := hrelated.append_closes rfl closes_parenthesis
  have hfactor := hconjunction.disjunction.existsRow (unrestricted_rowsTokens scope)
  have htext := existsRow_text negated scope conditions
  rw [scope.source_eq] at htext
  have hrows : ∀ row, scope.rows I row = I.rows (.word "1".toList :: scope.rowsTokens) row := by
    intro row
    rw [Scope.rows, tokens_rows]
  rw [htext]
  simp only [hrows, List.append_assoc] at hexists ⊢
  cases negated with
  | false =>
    rw [if_neg Bool.false_ne_true, List.nil_append]
    refine ⟨_, hexists.reads, ?_⟩
    simpa using hfactor
  | true =>
    rw [if_pos rfl]
    have hnot : Closes "NOT ".toList [.word "NOT".toList] := rfl
    refine ⟨_, hnot.append hexists.reads, ?_⟩
    simpa using hfactor.not

/-- A predicate whose condition is a comparison has the truth value of that comparison. -/
theorem comparison_reads {model : Model} {r : Resource} {owner : Alias} {predicate : Predicate}
    {s s' : Bindings} {condition : Condition}
    (hcondition : predicateCondition model r owner predicate s = .ok (condition, s'))
    (htext : ReadsAs IsComparison condition.text) :
    ∃ condition value s', predicateCondition model r owner predicate s = .ok (condition, s') ∧
      comparisonMeaning I model r owner predicate s = .ok (value, s') ∧
      FactorText I condition.text value := by
  refine ⟨condition, _, s', hcondition, ?_, FactorText.of_comparison htext⟩
  rw [comparisonMeaning, bind_of_ok hcondition]
  rfl

/-- A predicate on related rows reads as it means when those in its clause do. -/
theorem related_reads {model : Model} {r target : Resource} {owner : Alias} {name : String}
    {relation : Relation} (negated : Bool) {clause : Clause}
    (hrelated : model.related r name = .ok (relation, target))
    (hentries : ∀ child, ∀ entry ∈ clause, PredicateReads I model target child entry.2) :
    PredicateReads I model r owner (.related name negated clause) := by
  intro s
  let child : Alias := .nested (s.aliases + 1)
  obtain ⟨conditions, values, s', hconditions, hvalues, htexts, _⟩ :=
    exists_clauseConditions_eq_ok clause (hentries child) { s with aliases := s.aliases + 1 }
  have hlift : liftFault (model.related r name) s = .ok ((relation, target), s) := by
    rw [hrelated]
    rfl
  have hfresh : freshAlias s = .ok (child, { s with aliases := s.aliases + 1 }) := rfl
  refine ⟨_, _, s', ?_, ?_, existsRow_reads negated (scopeOf relation target owner child) htexts⟩
  · rw [predicateCondition, bind_of_ok hlift]
    dsimp only
    rw [bind_of_ok hfresh, bind_of_ok hconditions]
    rfl
  · rw [predicateMeaning, bind_of_ok hlift]
    dsimp only
    rw [bind_of_ok hfresh, bind_of_ok hvalues]
    rfl

/-- A predicate on the count of related rows reads as it means. -/
theorem count_reads {model : Model} {r target : Resource} {owner : Alias} {name : String}
    {relation : Relation} (comparator : CountComparator) (n : Int)
    (hrelated : model.related r name = .ok (relation, target)) :
    PredicateReads I model r owner (.count name comparator n) := by
  intro s
  let scope := scopeOf relation target owner (.nested (s.aliases + 1))
  have hcondition : predicateCondition model r owner (.count name comparator n) s =
      .ok (.countRows scope comparator (s.values.length + 1),
        ⟨s.values ++ [.int n], s.aliases + 1⟩) := by
    rw [predicateCondition, hrelated]
    rfl
  exact comparison_reads hcondition (countRows_comparison scope comparator _)

/-- A group reads as it means when the predicates in it do. -/
theorem group_reads {model : Model} {r : Resource} {owner : Alias} {clause : Clause}
    (hne : clause ≠ []) (hentries : ∀ entry ∈ clause, PredicateReads I model r owner entry.2) :
    PredicateReads I model r owner (.group clause) := by
  intro s
  obtain ⟨conditions, values, s', hconditions, hvalues, htexts, hlength⟩ :=
    exists_clauseConditions_eq_ok clause hentries s
  have hfilled : conditions ≠ [] := by
    rw [← List.length_pos_iff, hlength]
    exact List.length_pos_iff.mpr hne
  refine ⟨.group conditions, _, s', ?_, ?_, (chainText_reads htexts hfilled).parenthesized⟩
  · rw [predicateCondition, bind_of_ok hconditions]
    rfl
  · rw [predicateMeaning, bind_of_ok hvalues]
    rfl

/-- The text of a predicate is read as a factor with the truth value of the predicate. -/
theorem predicate_reads {model : Model} (hplain : ∀ r ∈ model.resources, HasPlainTypes r)
    (predicate : Predicate) {r : Resource} (hr : HasPlainTypes r) (owner : Alias)
    (hresolves : predicate.Resolves model r) (hfilled : predicate.Filled) :
    PredicateReads I model r owner predicate := by
  induction predicate using Predicate.induct generalizing r owner with
  | condition column test =>
    intro s
    obtain ⟨condition, s', hcondition, htext⟩ := exists_testCondition_eq_ok hr owner column test s
    exact comparison_reads hcondition htext
  | date column bound day =>
    intro s
    exact comparison_reads rfl (day_comparison ⟨owner, column⟩ bound (s.values.length + 1))
  | contains column term =>
    intro s
    exact comparison_reads rfl (like_comparison ⟨owner, column⟩ (s.values.length + 1))
  | related name negated clause ih =>
    obtain ⟨relation, target, hrelated, hclause⟩ := hresolves
    -- the clause inside is about the target, on the rows of a new alias
    have htarget := hplain target (Model.mem_of_related hrelated)
    have hinner : Clause.Filled clause := hfilled
    apply related_reads negated hrelated
    intro child entry hentry
    exact ih entry hentry htarget child (hclause.of_mem hentry) (hinner.of_mem hentry)
  | count name comparator n =>
    obtain ⟨relation, target, hrelated⟩ := hresolves
    exact count_reads comparator n hrelated
  | group clause ih =>
    obtain ⟨hne, hinner⟩ := hfilled
    have hclause : Clause.Resolves model r clause := hresolves
    apply group_reads hne
    intro entry hentry
    exact ih entry hentry hr owner (hclause.of_mem hentry) (hinner.of_mem hentry)

end

end Records.Sql
