import Records.Proofs.Config.Sound
import Records.Proofs.Outcome
import Records.Proofs.Query.Runs
import Records.Proofs.Sql.Writes

/-!
# Values stay out of the text

The text of a statement and the number of its bound values depend on the shape of a query alone,
and on the names in written data alone (`values_stay_out_of_text`).  A query has the shape of its
erasure, in which every value is replaced by a fixed one; conditions are built in step with those of
the erasure, with as many values bound and as many aliases in use at each point.
-/

set_option autoImplicit false

namespace Records

/-- A test with fixed values in place of its own; whether it is about null is kept, and the length
of a list. -/
def Test.erased : Test → Test
  | .equals .null => .equals .null
  | .equals _ => .equals (.bool true)
  | .differs .null => .differs .null
  | .differs _ => .differs (.bool true)
  | .among values => .among (values.map fun _ => .null)
  | .notAmong values => .notAmong (values.map fun _ => .null)

mutual

/-- A predicate with fixed values in place of its own. -/
def Predicate.erased : Predicate → Predicate
  | .condition column test => .condition column test.erased
  | .date column bound _ => .date column bound ""
  | .contains column _ => .contains column ""
  | .related name negated clause => .related name negated (Clause.erased clause)
  | .count name comparator _ => .count name comparator 0
  | .group clause => .group (Clause.erased clause)

/-- A clause with fixed values in place of its own. -/
def Clause.erased : List (Joiner × Predicate) → List (Joiner × Predicate)
  | [] => []
  | (joiner, predicate) :: rest => (joiner, predicate.erased) :: Clause.erased rest

end

/-- A query with fixed values in place of its own: queries of one shape have one erasure. -/
def Query.erased (query : Query) : Query := { query with clause := Clause.erased query.clause }

namespace Sql

variable {α β : Type}

/-- How many values are bound, and how many aliases are in use. -/
def Bindings.extent (s : Bindings) : Nat × Nat := (s.values.length, s.aliases)

/-- Two steps from bindings of one extent fail alike, or give the same and lead to bindings of one
extent. -/
def InStep (m n : Binder α) : Prop :=
  ∀ s t : Bindings, s.extent = t.extent →
    (m s).map (fun out => (out.1, out.2.extent)) = (n t).map fun out => (out.1, out.2.extent)

namespace InStep

/-- The same result without a step is in step with itself. -/
theorem pure (a : α) : InStep (Pure.pure a) (Pure.pure a) := by
  intro s t hst
  show Except.ok (a, s.extent) = Except.ok (a, t.extent)
  rw [hst]

/-- What goes on alike from bindings of one extent goes on alike after steps taken alike. -/
theorem run {m n : Binder α} (h : InStep m n) {s t : Bindings} (hst : s.extent = t.extent)
    {f g : α × Bindings → Except Fault β}
    (hfg : ∀ a s t, Bindings.extent s = Bindings.extent t → f (a, s) = g (a, t)) :
    (m s >>= f) = (n t >>= g) := by
  have hout := h s t hst
  cases hm : m s with
  | error why =>
    cases hn : n t with
    | error other =>
      rw [hm, hn] at hout
      cases hout
      rfl
    | ok out =>
      rw [hm, hn] at hout
      cases hout
  | ok out =>
    cases hn : n t with
    | error why =>
      rw [hm, hn] at hout
      cases hout
    | ok other =>
      rw [hm, hn] at hout
      obtain ⟨hresult, hextent⟩ := Prod.mk.inj (Except.ok.inj hout)
      show f (out.1, out.2) = g (other.1, other.2)
      rw [hresult]
      exact hfg other.1 out.2 other.2 hextent

/-- Steps that are in step, followed by such steps, stay so. -/
theorem bind {m n : Binder α} {f g : α → Binder β} (h : InStep m n)
    (hfg : ∀ a, InStep (f a) (g a)) : InStep (m >>= f) (n >>= g) := by
  intro s t hst
  show ((m s >>= fun out => f out.1 out.2).map _) = (n t >>= fun out => g out.1 out.2).map _
  rw [Outcome.map_bind, Outcome.map_bind]
  exact h.run hst fun a => hfg a

/-- Binding one value is in step with binding another. -/
theorem bindValue (v w : BindValue) : InStep (bindValue v) (bindValue w) := by
  intro s t hst
  obtain ⟨hvalues, haliases⟩ := Prod.mk.inj hst
  simp only [Sql.bindValue, Except.map, Bindings.extent, List.length_append, hvalues, haliases,
    List.length_singleton]

/-- Taking the next alias is in step with itself. -/
theorem freshAlias : InStep freshAlias freshAlias := by
  intro s t hst
  obtain ⟨hvalues, haliases⟩ := Prod.mk.inj hst
  simp only [Sql.freshAlias, Except.map, Bindings.extent, hvalues, haliases]

/-- Passing on what was found is in step with itself. -/
theorem liftFault (result : Except Fault α) : InStep (liftFault result) (liftFault result) := by
  intro s t hst
  cases result with
  | error why => rfl
  | ok a => exact pure a s t hst

/-- Binding one value of a column is in step with binding another. -/
theorem bindColumn (r : Resource) (column : String) (v w : Json) :
    InStep (bindColumn r column v) (bindColumn r column w) := by
  rw [Sql.bindColumn, Sql.bindColumn]
  cases r.columnType? column with
  | none => exact bind (bindValue _ _) fun number => pure _
  | some type => exact bind (bindValue _ _) fun number => pure _

/-- Binding values of a column is in step with binding as many nulls. -/
theorem mapM_bindColumn (r : Resource) (column : String) (values : List Json) :
    InStep (values.mapM (Sql.bindColumn r column))
      ((values.map fun _ => Json.null).mapM (Sql.bindColumn r column)) := by
  induction values with
  | nil => exact pure []
  | cons value rest ih =>
    rw [List.map_cons, List.mapM_cons, List.mapM_cons]
    exact bind (bindColumn r column value .null) fun first => bind ih fun others => pure _

end InStep

/-- A test is built in step with its erasure. -/
theorem testCondition_inStep (r : Resource) (owner : Alias) (column : String) (test : Test) :
    InStep (testCondition r owner column test) (testCondition r owner column test.erased) := by
  cases test with
  | equals value =>
    cases value with
    | null => exact InStep.pure _
    | _ => exact InStep.bind (InStep.bindColumn r column _ _) fun p => InStep.pure _
  | differs value =>
    cases value with
    | null => exact InStep.pure _
    | _ => exact InStep.bind (InStep.bindColumn r column _ _) fun p => InStep.pure _
  | among values =>
    cases values with
    | nil => exact InStep.pure _
    | cons value rest =>
      exact InStep.bind (InStep.mapM_bindColumn r column (value :: rest)) fun ps => InStep.pure _
  | notAmong values =>
    cases values with
    | nil => exact InStep.pure _
    | cons value rest =>
      exact InStep.bind (InStep.mapM_bindColumn r column (value :: rest)) fun ps => InStep.pure _

/-- A clause is built in step with its erasure when its predicates are. -/
theorem clauseConditions_inStep (model : Model) (r : Resource) (owner : Alias) (clause : Clause)
    (h : ∀ entry ∈ clause, InStep (predicateCondition model r owner entry.2)
      (predicateCondition model r owner entry.2.erased)) :
    InStep (clauseConditions model r owner clause)
      (clauseConditions model r owner (Clause.erased clause)) := by
  induction clause with
  | nil => exact InStep.pure []
  | cons entry rest ih =>
    obtain ⟨joiner, predicate⟩ := entry
    rw [Clause.erased, clauseConditions, clauseConditions]
    refine InStep.bind (h (joiner, predicate) (by simp)) fun first => ?_
    have hrest := ih fun other hother => h other (List.mem_cons_of_mem _ hother)
    exact InStep.bind hrest fun others => InStep.pure _

/-- The condition of a predicate is built in step with that of its erasure. -/
theorem predicateCondition_inStep (model : Model) (r : Resource) (owner : Alias)
    (predicate : Predicate) :
    InStep (predicateCondition model r owner predicate)
      (predicateCondition model r owner predicate.erased) := by
  induction predicate using Predicate.induct generalizing r owner with
  | condition column test => exact testCondition_inStep r owner column test
  | date column bound day =>
    exact InStep.bind (InStep.bindValue _ _) fun number => InStep.pure _
  | contains column term =>
    exact InStep.bind (InStep.bindValue _ _) fun number => InStep.pure _
  | related name negated clause ih =>
    rw [Predicate.erased, predicateCondition, predicateCondition]
    refine InStep.bind (InStep.liftFault _) fun found => ?_
    refine InStep.bind InStep.freshAlias fun child => ?_
    have hinner := clauseConditions_inStep model found.2 child clause fun entry hentry =>
      ih entry hentry found.2 child
    exact InStep.bind hinner fun inner => InStep.pure _
  | count name comparator n =>
    rw [Predicate.erased, predicateCondition, predicateCondition]
    refine InStep.bind (InStep.liftFault _) fun found => ?_
    refine InStep.bind InStep.freshAlias fun child => ?_
    exact InStep.bind (InStep.bindValue _ _) fun number => InStep.pure _
  | group clause ih =>
    rw [Predicate.erased, predicateCondition, predicateCondition]
    have hinner := clauseConditions_inStep model r owner clause fun entry hentry =>
      ih entry hentry r owner
    exact InStep.bind hinner fun inner => InStep.pure _

/-- The restriction of a query is built in step with that of its erasure. -/
theorem restrictionOf_inStep (model : Model) (r : Resource) (query : Query) :
    InStep (restrictionOf model r query) (restrictionOf model r query.erased) := by
  have hclause := clauseConditions_inStep model r .main query.clause fun entry _ =>
    predicateCondition_inStep model r .main entry.2
  exact InStep.bind hclause fun conditions => InStep.pure _

/-- The selects that are shown are built in step, whatever was bound before. -/
theorem embeddedOf_inStep (model : Model) (r : Resource) (names : List String) :
    InStep (embeddedOf model r names) (embeddedOf model r names) := by
  induction names with
  | nil => exact InStep.pure []
  | cons name rest ih =>
    rw [embeddedOf]
    refine InStep.bind (InStep.liftFault _) fun found => ?_
    refine InStep.bind InStep.freshAlias fun child => ?_
    exact InStep.bind ih fun others => InStep.pure _

/-- What of a statement goes to the database in its text: the text, and how many values it takes. -/
def Bound.printed {α : Type} (text : α → List Char) (bound : Bound α) : List Char × Nat :=
  (text bound.statement, bound.values.length)

/-- The fault of the first number of a page that cannot be bound. -/
def pagingFault (paging : Paging) : Except Fault Unit := do
  let _ ← int64OrFault .perPageTooLarge paging.perPage
  let _ ← int64OrFault .pageTooLarge paging.offset
  return ()

/-- What goes on alike whatever the numbers of a page depends on their fault alone. -/
theorem bind_int64OrFault (paging : Paging) {f : Int → Int → Except Fault α}
    {out : Except Fault α} (hf : ∀ perPage skip, f perPage skip = out) :
    (do
      let perPage ← int64OrFault .perPageTooLarge paging.perPage
      let skip ← int64OrFault .pageTooLarge paging.offset
      f perPage skip) =
    (pagingFault paging >>= fun _ => out) := by
  simp only [pagingFault, hf]
  cases int64OrFault .perPageTooLarge paging.perPage with
  | error why => rfl
  | ok perPage =>
    cases int64OrFault .pageTooLarge paging.offset with
    | error why => rfl
    | ok skip => rfl

/-- Numbers of a page are bound alike when the pages have the same fault. -/
theorem int64OrFault_congr {p q : Paging} (h : pagingFault p = pagingFault q)
    {f g : Int → Int → Except Fault α} (hfg : ∀ a b c d, f a b = g c d) :
    (do
      let perPage ← int64OrFault .perPageTooLarge p.perPage
      let skip ← int64OrFault .pageTooLarge p.offset
      f perPage skip) =
    (do
      let perPage ← int64OrFault .perPageTooLarge q.perPage
      let skip ← int64OrFault .pageTooLarge q.offset
      g perPage skip) := by
  have hg : ∀ c d, g c d = g 0 0 := fun c d => (hfg 0 0 c d).symm.trans (hfg 0 0 0 0)
  rw [bind_int64OrFault p fun a b => hfg a b 0 0, bind_int64OrFault q hg, h]

/-- Page statements of one shape of query are printed alike, whatever the numbers of the pages. -/
theorem pageOf_erased (model : Model) (query : Query) {p q : Paging}
    (hpaging : pagingFault p = pagingFault q) :
    (pageOf model query p).map
        (fun out => (out.1.printed Selection.text, out.2.printed Tally.text)) =
      (pageOf model query.erased q).map
        fun out => (out.1.printed Selection.text, out.2.printed Tally.text) := by
  have hwindow : ∀ a b c d : Int, InStep
      (do return (← bindValue (.int a), ← bindValue (.int b)) : Binder (Nat × Nat))
      (do return (← bindValue (.int c), ← bindValue (.int d)) : Binder (Nat × Nat)) :=
    fun a b c d => InStep.bind (InStep.bindValue _ _) fun limit =>
      InStep.bind (InStep.bindValue _ _) fun offset => InStep.pure _
  rw [pageOf, pageOf, Outcome.map_bind, Outcome.map_bind]
  refine congrArg _ (funext fun r => ?_)
  rw [Outcome.map_bind, Outcome.map_bind]
  refine (restrictionOf_inStep model r query).run rfl fun restriction s t hcounted => ?_
  rw [Outcome.map_bind, Outcome.map_bind]
  refine (embeddedOf_inStep model r query.eager).run hcounted fun embedded s' t' hshown => ?_
  simp only [Outcome.map_bind]
  refine int64OrFault_congr hpaging fun a b c d => ?_
  refine (hwindow a b c d).run hshown fun out s'' t'' hlast => ?_
  have htally : s.values.length = t.values.length := (Prod.mk.inj hcounted).1
  have hpage : s''.values.length = t''.values.length := (Prod.mk.inj hlast).1
  show Except.ok ((_, s''.values.length), (_, s.values.length)) =
    Except.ok ((_, t''.values.length), (_, t.values.length))
  rw [htally, hpage]
  rfl

/-- The first statement is printed alike for a query and its erasure. -/
theorem firstOf_erased (model : Model) (query : Query) :
    (firstOf model query).map (Bound.printed Selection.text) =
      (firstOf model query.erased).map (Bound.printed Selection.text) := by
  rw [firstOf, firstOf, Outcome.map_bind, Outcome.map_bind]
  refine congrArg _ (funext fun r => ?_)
  rw [Outcome.map_bind, Outcome.map_bind]
  refine (restrictionOf_inStep model r query).run rfl fun restriction s t hcounted => ?_
  rw [Outcome.map_bind, Outcome.map_bind]
  refine (embeddedOf_inStep model r query.eager).run hcounted fun embedded s' t' hshown => ?_
  have hlength : s'.values.length = t'.values.length := (Prod.mk.inj hshown).1
  show Except.ok (_, s'.values.length) = Except.ok (_, t'.values.length)
  rw [hlength]
  rfl

/-- Insertions into the same columns are printed alike. -/
theorem insert_printed (r : Resource) {data data' : Fields}
    (h : data.map Prod.fst = data'.map Prod.fst) :
    (insert r data).printed Change.text = (insert r data').printed Change.text := by
  have hnames : (columnFields r data).map Prod.fst = (columnFields r data').map Prod.fst := by
    rw [map_fst_columnFields, map_fst_columnFields, h]
  have hlength : (columnFields r data).length = (columnFields r data').length := by
    simpa using congrArg List.length hnames
  show (Change.text (.insert (tableOf r) (placeholders r [] (columnFields r data)).1),
      (placeholders r [] (columnFields r data)).2.length) =
    (Change.text (.insert (tableOf r) (placeholders r [] (columnFields r data')).1),
      (placeholders r [] (columnFields r data')).2.length)
  rw [placeholders_fst, placeholders_fst, length_placeholders_snd, length_placeholders_snd, hnames,
    hlength]

/-- Updates of the same columns are printed alike, whatever the key. -/
theorem update_printed (r : Resource) (id id' : Json) {data data' : Fields}
    (h : data.map Prod.fst = data'.map Prod.fst) :
    (update r id data).printed Change.text = (update r id' data').printed Change.text := by
  have hnames : (r.changedFields data).map Prod.fst = (r.changedFields data').map Prod.fst := by
    rw [map_fst_changedFields, map_fst_changedFields, h]
  have hlength : (r.changedFields data).length = (r.changedFields data').length := by
    simpa using congrArg List.length hnames
  have hempty : (r.changedFields data).isEmpty = (r.changedFields data').isEmpty := by
    simpa using congrArg List.isEmpty hnames
  have hstamp : r.stampsUpdate data = r.stampsUpdate data' := by
    rw [Resource.stampsUpdate, Resource.stampsUpdate, has_eq_any_map_fst, has_eq_any_map_fst, h]
  have hsets : (placeholders r [] (r.changedFields data)).1 =
      (placeholders r [] (r.changedFields data')).1 := by
    rw [placeholders_fst, placeholders_fst, hnames]
  have hbound : (placeholders r [] (r.changedFields data)).2.length =
      (placeholders r [] (r.changedFields data')).2.length := by
    rw [length_placeholders_snd, length_placeholders_snd, hlength]
  have hrows : (rowOf r (placeholders r [] (r.changedFields data)).2 id).1 =
      (rowOf r (placeholders r [] (r.changedFields data')).2 id').1 := by
    rw [rowOf_fst, rowOf_fst, hbound]
  have hvalues : (rowOf r (placeholders r [] (r.changedFields data)).2 id).2.length =
      (rowOf r (placeholders r [] (r.changedFields data')).2 id').2.length := by
    rw [length_rowOf_snd, length_rowOf_snd, hbound]
  unfold update
  simp only [hempty, hsets, hstamp, hrows]
  split
  · exact Prod.ext rfl hvalues
  · exact Prod.ext rfl hvalues

/-- Deletions of one row are printed alike. -/
theorem delete_printed (r : Resource) (id id' : Json) :
    (delete r id).printed Change.text = (delete r id').printed Change.text := by
  show (Change.text (remove (rowOf r [] id).1 true), (rowOf r [] id).2.length) =
    (Change.text (remove (rowOf r [] id').1 true), (rowOf r [] id').2.length)
  rw [rowOf_fst, rowOf_fst, length_rowOf_snd, length_rowOf_snd]

/-- Deletions of as many rows are printed alike. -/
theorem deleteIn_printed (r : Resource) {ids ids' : List Json} (h : ids.length = ids'.length) :
    (deleteIn r ids).printed Change.text = (deleteIn r ids').printed Change.text := by
  have hnames : (ids.map fun id => (r.primaryKey, id)).map Prod.fst =
      (ids'.map fun id => (r.primaryKey, id)).map Prod.fst := by
    simp only [List.map_map, Function.comp_def, List.map_const', h]
  show (Change.text (remove ⟨_, _,
      .anyOf ((placeholders r [] (ids.map fun id => (r.primaryKey, id))).1.map (·.2)), _⟩ false),
      (placeholders r [] (ids.map fun id => (r.primaryKey, id))).2.length) =
    (Change.text (remove ⟨_, _,
      .anyOf ((placeholders r [] (ids'.map fun id => (r.primaryKey, id))).1.map (·.2)), _⟩ false),
      (placeholders r [] (ids'.map fun id => (r.primaryKey, id))).2.length)
  rw [placeholders_fst, placeholders_fst, length_placeholders_snd, length_placeholders_snd, hnames,
    List.length_map, List.length_map, h]

/-- Text never depends on values: queries that differ in values alone have the same page, count and
first statements, pages of any numbers that can be bound, and the same faults; so do changes of
data with the same names, of any ids, and removals of as many ids. -/
theorem values_stay_out_of_text (model : Model) :
    (∀ query query' : Query, query.erased = query'.erased →
      (∀ paging paging', pagingFault paging = pagingFault paging' →
        (pageOf model query paging).map
            (fun out => (out.1.printed Selection.text, out.2.printed Tally.text)) =
          (pageOf model query' paging').map
            fun out => (out.1.printed Selection.text, out.2.printed Tally.text)) ∧
        (firstOf model query).map (Bound.printed Selection.text) =
          (firstOf model query').map (Bound.printed Selection.text)) ∧
    ∀ r : Resource,
      (∀ data data' : Fields, data.map Prod.fst = data'.map Prod.fst →
        (insert r data).printed Change.text = (insert r data').printed Change.text ∧
          ∀ id id',
            (update r id data).printed Change.text = (update r id' data').printed Change.text) ∧
      (∀ id id', (delete r id).printed Change.text = (delete r id').printed Change.text) ∧
        ∀ ids ids' : List Json, ids.length = ids'.length →
          (deleteIn r ids).printed Change.text = (deleteIn r ids').printed Change.text := by
  constructor
  · intro query query' hshape
    constructor
    · intro paging paging' hpaging
      -- both are printed as their common erasure is
      rw [pageOf_erased model query hpaging, hshape, ← pageOf_erased model query' rfl]
    · rw [firstOf_erased, hshape, ← firstOf_erased]
  · intro r
    refine ⟨?_, ?_, ?_⟩
    · intro data data' hnames
      exact ⟨insert_printed r hnames, fun id id' => update_printed r id id' hnames⟩
    · exact fun id id' => delete_printed r id id'
    · exact fun ids ids' hlength => deleteIn_printed r hlength

/-- Hostile values and another page leave the statements of the journal as they are. -/
theorem values_stay_out_of_text_journal :
    let query := fun (title term : String) (ids : List Json) (count : Int) => ({
      resource := "posts"
      clause := [
        (.and, .condition "title" (.equals (.str title))),
        (.or, .condition "id" (.among ids)),
        (.and, .related "comments" true [(.and, .contains "body" term)]),
        (.and, .count "comments" .atLeast count)]
      eager := ["comments"] } : Query)
    let tame := query "Lean" "proof" [.int 1, .int 2] 1
    let hostile := query "' OR 1 = 1 --" "$1" [.str "\"; DROP", .null] (-1)
    let posts := Config.resolveResource Config.postsDef
    let data : Fields := [("title", .str "Lean"), ("id", .int 1)]
    let other : Fields := [("title", .null), ("id", .str "NOW()")]
    (tame.erased = hostile.erased ∧ pagingFault ⟨1, 10⟩ = pagingFault ⟨3, 25⟩ ∧
      (pageOf Config.journal tame ⟨1, 10⟩).map
          (fun out => (out.1.printed Selection.text, out.2.printed Tally.text)) =
        (pageOf Config.journal hostile ⟨3, 25⟩).map
          fun out => (out.1.printed Selection.text, out.2.printed Tally.text)) ∧
    (data.map Prod.fst = other.map Prod.fst ∧
      (update posts (.int 1) data).printed Change.text =
        (update posts (.str "1 OR 1 = 1") other).printed Change.text) ∧
    ([Json.int 1].length = [Json.str ")"].length ∧
      (deleteIn posts [.int 1]).printed Change.text =
        (deleteIn posts [.str ")"]).printed Change.text) := by
  intro query tame hostile posts data other
  have statements := values_stay_out_of_text Config.journal
  exact ⟨⟨rfl, rfl, (statements.1 tame hostile rfl).1 _ _ rfl⟩,
    ⟨rfl, ((statements.2 posts).1 data other rfl).2 _ _⟩,
    ⟨rfl, (statements.2 posts).2.2 _ _ rfl⟩⟩

end Sql

end Records
