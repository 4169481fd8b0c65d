import Records.Proofs.Outcome
import Records.Proofs.Store.Evaluation

/-!
# Pages of an answer

A query whose relations resolve is answered without a fault: its rows are the visible rows with a
true clause, in its order, and every page is a part of one list of shown rows (`page_eq_ok`).
-/

set_option autoImplicit false

namespace Records.Store

variable (model : Model) (store : Store) (r : Resource) (query : Query)

/-- Rows on which a test does not fail are filtered by what it says. -/
theorem passing_eq_filter {test : Row → Except Fault Bool} {truth : Row → Bool} {rows : List Row}
    (h : ∀ row ∈ rows, test row = .ok (truth row)) :
    passing test rows = .ok (rows.filter truth) := by
  induction rows with
  | nil => rfl
  | cons row rest ih =>
    have hrest := ih fun other hother => h other (List.mem_cons_of_mem _ hother)
    rw [passing, h row (by simp), hrest]
    show Except.ok (if truth row then row :: rest.filter truth else rest.filter truth) = _
    rw [List.filter_cons]

/-- Rows are passed when the test faults on none of them. -/
theorem passing_eq_ok {test : Row → Except Fault Bool} {rows passed : List Row} :
    passing test rows = .ok passed ↔
      (∀ row ∈ rows, test row = .ok (passes (test row))) ∧
        passed = rows.filter fun row => passes (test row) := by
  constructor
  · intro h
    have hrows : ∀ row ∈ rows, test row = .ok (passes (test row)) := by
      induction rows generalizing passed with
      | nil => simp
      | cons row rest ih =>
        obtain ⟨holds, hholds, h⟩ := Outcome.bind_eq_ok.mp h
        obtain ⟨others, hothers, _⟩ := Outcome.bind_eq_ok.mp h
        refine List.forall_mem_cons.mpr ⟨?_, ih hothers⟩
        rw [hholds]
        rfl
    rw [passing_eq_filter hrows] at h
    exact ⟨hrows, (Except.ok.inj h).symm⟩
  · rintro ⟨hrows, rfl⟩
    exact passing_eq_filter hrows

/-- Whether a query sees a row and its clause is true of it. -/
def answers (row : Row) : Bool :=
  isVisible r query.trashed row && Clause.value (store.holds model r row) query.clause

/-- The rows that answer a query whose relations resolve. -/
theorem matching_of_resolves (h : Clause.Resolves model r query.clause) :
    store.matching model r query =
      .ok (((store.rows r.name).filter (store.answers model r query)).mergeSort fun a b =>
        (Row.order query.order a b).isLE) := by
  have hmatch : ∀ row ∈ store.rows r.name,
      store.isMatch model r query row = .ok (store.answers model r query row) := by
    intro row _
    rw [isMatch, answers, satisfies_of_resolves model store r row query.clause h]
    cases isVisible r query.trashed row <;> rfl
  rw [matching, passing_eq_filter hmatch]
  rfl

/-- The value that a relation of a name shows of a row, where there is one. -/
def relatedValue (row : Row) (name : String) : Json :=
  match model.related r name with
  | .ok (relation, target) => store.shownRelated relation target row
  | .error _ => .null

/-- What a query shows of a row, when the relations that it shows resolve. -/
theorem project_eq_ok (row : Row)
    (h : ∀ name ∈ query.eager, ∃ found, model.related r name = .ok found) :
    store.project model r query row =
      .ok (.obj ((query.eager.map fun name => (name, store.relatedValue model r row name)).foldl
        (fun fields field => Fields.put fields field.1 field.2)
        (shownColumns query.columns row))) := by
  have hfold : ∀ (eager : List String) (shown : Row),
      (∀ name ∈ eager, ∃ found, model.related r name = .ok found) →
        eager.foldlM (store.addRelated model r row) shown =
          .ok ((eager.map fun name => (name, store.relatedValue model r row name)).foldl
            (fun fields field => Fields.put fields field.1 field.2) shown) := by
    intro eager
    induction eager with
    | nil => exact fun shown _ => rfl
    | cons name rest ih =>
      intro shown hnames
      obtain ⟨⟨found, hfound⟩, hrest⟩ := List.forall_mem_cons.mp hnames
      have hadd : store.addRelated model r row shown name =
          .ok (Fields.put shown name (store.relatedValue model r row name)) := by
        rw [addRelated, relatedValue, hfound]
        rfl
      rw [List.foldlM_cons, hadd]
      exact ih _ hrest
  rw [project, hfold query.eager _ h]
  rfl

/-- A row is shown without a fault when the relations shown with it resolve. -/
theorem exists_project_eq_ok (row : Row)
    (h : ∀ name ∈ query.eager, ∃ found, model.related r name = .ok found) :
    ∃ shown, store.project model r query row = .ok shown :=
  ⟨_, project_eq_ok model store r query row h⟩

/-- Each page is the part at its place of the list of all shown rows. -/
theorem page_eq_ok {rows : List Row} {shown : List Json}
    (hresource : model.requireResource query.resource = .ok r)
    (hrows : store.matching model r query = .ok rows)
    (hshown : rows.mapM (store.project model r query) = .ok shown) (paging : Paging) :
    store.page model query paging =
      .ok (Page.of ((shown.drop paging.offset).take paging.perPage) rows.length paging) := by
  have hpart : ((rows.drop paging.offset).take paging.perPage).mapM (store.project model r query) =
      .ok ((shown.drop paging.offset).take paging.perPage) :=
    Outcome.mapM_eq_ok.mpr
      (List.forall₂_take _ (List.forall₂_drop _ (Outcome.mapM_eq_ok.mp hshown)))
  exact Outcome.bind_eq_ok.mpr ⟨r, hresource, Outcome.bind_eq_ok.mpr ⟨rows, hrows,
    Outcome.bind_eq_ok.mpr ⟨_, hpart, rfl⟩⟩⟩

/-- A query whose shown relations resolve faults on every page alike, or gives on each page the part
at its place of one list. -/
theorem page_cases (hresource : model.requireResource query.resource = .ok r)
    (heager : ∀ name ∈ query.eager, ∃ found, model.related r name = .ok found) :
    (∃ why, ∀ paging, store.page model query paging = .error why) ∨
      ∃ (shown : List Json) (total : Nat), ∀ paging, store.page model query paging =
        .ok (Page.of ((shown.drop paging.offset).take paging.perPage) total paging) := by
  cases hrows : store.matching model r query with
  | error why =>
    refine .inl ⟨why, fun paging => ?_⟩
    rw [page, Outcome.bind_of_ok hresource, hrows]
    rfl
  | ok rows =>
    obtain ⟨shown, hshown⟩ := Outcome.exists_mapM_eq_ok fun row (_ : row ∈ rows) =>
      exists_project_eq_ok model store r query row heager
    exact .inr ⟨shown, rows.length, page_eq_ok model store r query hresource hrows hshown⟩

/-- The first row of an answer is shown, if the answer has a row. -/
theorem first?_eq_head? {rows : List Row}
    (hresource : model.requireResource query.resource = .ok r)
    (hrows : store.matching model r query = .ok rows) :
    store.first? model query =
      match rows.head? with
      | some row => (store.project model r query row).map some
      | none => .ok none := by
  rw [first?, Outcome.bind_of_ok hresource, Outcome.bind_of_ok hrows]
  cases rows <;> rfl

end Records.Store
