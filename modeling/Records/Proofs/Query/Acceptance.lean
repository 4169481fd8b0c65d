import Records.Proofs.Query.Assembly

/-!
# Which listings are accepted

A listing is accepted exactly when all that it names is there (`assembled_iff_valid`): the columns
and relations it shows, counts and sorts by, and for every condition of its filters, however nested,
a way along declared relations to a resource with the column.  Days have to read as days, and the
trash is there to be asked for only under a trash mark.  A search is never refused.
-/

set_option autoImplicit false

namespace Records

/-! ### What may be asked -/

/-- The columns and relations that rows are to be shown with are declared. -/
structure Resource.CanShow (r : Resource) (eager columns : List String) : Prop where
  columns : ∀ name ∈ columns, name ∈ r.columns.map Column.name
  eager : ∀ name ∈ eager, name ∈ r.relations.map Relation.name

/-- A bound is left open or reads as a day. -/
def Date.IsBound (raw : Option String) : Prop := ∀ text ∈ raw, ∃ day, normalize text = .ok day

/-- Relations of these names lead one after another from a resource to another one. -/
inductive Model.Leads (model : Model) : Resource → List String → Resource → Prop
  | here (r : Resource) : Leads model r [] r
  | step {r target last : Resource} {relation : Relation} {names : List String}
      (declared : relation ∈ r.relations) (present : target ∈ model.resources)
      (led : target.name = relation.related) (onward : Leads model target names last) :
      Leads model r (relation.name :: names) last

/-- A path of relations leads on through the target of its first relation. -/
theorem Model.leads_cons_iff {model : Model} (r last : Resource) (name : String)
    {names : List String} :
    model.Leads r (name :: names) last ↔ ∃ relation target,
      ((relation ∈ r.relations ∧ relation.name = name) ∧
        target ∈ model.resources ∧ target.name = relation.related) ∧
      model.Leads target names last := by
  constructor
  · intro h
    cases h with
    | @step _ target _ relation _ declared present led onward =>
      exact ⟨relation, target, ⟨⟨declared, rfl⟩, present, led⟩, onward⟩
  · rintro ⟨relation, target, ⟨⟨declared, rfl⟩, present, led⟩, onward⟩
    exact .step declared present led onward

/-- An operand can be compared with a column: a range is not negated and its bounds are days. -/
def Operand.Suits (segment : Segment) : Operand → Prop
  | .scalar _ => True
  | .list _ => True
  | .range lower upper => segment.negated = false ∧ Date.IsBound lower ∧ Date.IsBound upper

/-- A key leads to a resource that has its column, with which the operand can be compared. -/
structure FilterPath.Suits (model : Model) (r : Resource) (path : FilterPath) (operand : Operand) :
    Prop where
  column : ∃ last, model.Leads r (path.relations.map Segment.name) last ∧
    path.column.name ∈ last.columns.map Column.name
  operand : operand.Suits path.column

namespace FilterItem

mutual

/-- The conditions of an item, alone or in a group. -/
def conditions : FilterItem → List (FilterPath × Operand)
  | .condition path operand => [(path, operand)]
  | .anyOf items => allConditions items

/-- The conditions of some items. -/
def allConditions : List FilterItem → List (FilterPath × Operand)
  | [] => []
  | item :: items => item.conditions ++ allConditions items

end

end FilterItem

namespace Filtering

variable {model : Model} {r : Resource}

/-- The entry for a bound is found exactly when the bound is open or a day. -/
theorem exists_boundClause_iff (column : String) (bound : DateBound) (raw : Option String) :
    (∃ clause, boundClause column bound raw = .ok clause) ↔ Date.IsBound raw := by
  cases raw with
  | none => simp [boundClause, Date.IsBound]
  | some text => simp [boundClause, Outcome.exists_map_eq_ok, Date.IsBound]

/-- The entries for a range are found exactly when both bounds are open or days. -/
theorem exists_rangeClause_iff (column : String) (lower upper : Option String) :
    (∃ clause, rangeClause column lower upper = .ok clause) ↔
      Date.IsBound lower ∧ Date.IsBound upper := by
  rw [← exists_boundClause_iff column .lower lower, ← exists_boundClause_iff column .upper upper]
  exact Outcome.exists_bind_eq_ok fun _ _ => Outcome.exists_bind_pure_eq_ok

/-- The entries for a column are found exactly when it is declared and the operand suits it. -/
theorem exists_columnClause_iff {segment : Segment} {operand : Operand} {joiner : Joiner} :
    (∃ clause, columnClause r segment operand joiner = .ok clause) ↔
      segment.name ∈ r.columns.map Column.name ∧ operand.Suits segment := by
  rw [← Resource.exists_requireColumn_iff]
  refine Outcome.exists_bind_eq_ok fun column _ => ?_
  cases operand with
  | scalar value => exact iff_of_true ⟨_, rfl⟩ trivial
  | list values => exact iff_of_true ⟨_, rfl⟩ trivial
  | range lower upper =>
    rw [Operand.Suits, ← exists_rangeClause_iff column.name]
    cases segment.negated with
    | true => exact iff_of_false (fun ⟨_, h⟩ => nomatch h) (fun h => nomatch h.1)
    | false =>
      rw [and_iff_right rfl]
      cases joinerOf segment joiner with
      | and => exact Outcome.exists_bind_pure_eq_ok
      | or => exact Outcome.exists_bind_pure_eq_ok

variable {defs : Definitions} (resolved : Config.resolve defs = .ok model)

include resolved in
/-- The entries for a condition are found when its key leads to a column that it suits. -/
theorem exists_pathClause_iff (hr : r ∈ model.resources) {column : Segment} {operand : Operand}
    {joiner : Joiner} {path : List Segment} :
    (∃ clause, pathClause model r column operand joiner path = .ok clause) ↔
      FilterPath.Suits model r ⟨path, column⟩ operand := by
  induction path generalizing r joiner with
  | nil =>
    rw [pathClause, exists_columnClause_iff]
    constructor
    · rintro ⟨hcolumn, hoperand⟩
      exact ⟨⟨r, .here r, hcolumn⟩, hoperand⟩
    · rintro ⟨⟨last, hleads, hcolumn⟩, hoperand⟩
      cases hleads
      exact ⟨hcolumn, hoperand⟩
  | cons segment rest ih =>
    constructor
    · rintro ⟨clause, h⟩
      obtain ⟨⟨relation, target⟩, hrelated, h⟩ := Outcome.bind_eq_ok.mp h
      obtain ⟨inner, hinner, _⟩ := Outcome.bind_eq_ok.mp h
      have hdeclared := (Config.related_iff_of_resolve resolved hr).mp hrelated
      have htarget := hdeclared.2.1
      obtain ⟨⟨last, honward, hcolumn⟩, hoperand⟩ := (ih htarget).mp ⟨inner, hinner⟩
      have hleads := (Model.leads_cons_iff _ _ _).mpr ⟨relation, target, hdeclared, honward⟩
      exact ⟨⟨last, hleads, hcolumn⟩, hoperand⟩
    · rintro ⟨⟨last, hleads, hcolumn⟩, hoperand⟩
      -- a declared relation of a resolved model leads to one target only
      obtain ⟨relation, target, hrelated, honward⟩ := (Model.leads_cons_iff _ _ _).mp hleads
      have htarget := hrelated.2.1
      obtain ⟨inner, hinner⟩ := (ih htarget).mpr ⟨⟨last, honward, hcolumn⟩, hoperand⟩
      have hfound := (Config.related_iff_of_resolve resolved hr).mpr hrelated
      exact ⟨_, Outcome.bind_eq_ok.mpr ⟨_, hfound, Outcome.bind_eq_ok.mpr ⟨inner, hinner, rfl⟩⟩⟩

mutual

/-- The entries for an item are found exactly when every condition in it suits the resource. -/
theorem exists_itemClause_iff (resolved : Config.resolve defs = .ok model)
    (hr : r ∈ model.resources) : ∀ (item : FilterItem) (joiner : Joiner),
      (∃ clause, itemClause model r joiner item = .ok clause) ↔
        ∀ condition ∈ item.conditions, condition.1.Suits model r condition.2
  | .condition path operand, _ => by
    rw [itemClause, exists_pathClause_iff resolved hr, FilterItem.conditions,
      List.forall_mem_singleton]
  | .anyOf items, _ => by
    rw [FilterItem.conditions, ← exists_itemsClause_iff resolved hr items .or]
    exact Outcome.exists_bind_pure_eq_ok

/-- The entries for filter items are found when they are for every condition in them. -/
theorem exists_itemsClause_iff (resolved : Config.resolve defs = .ok model)
    (hr : r ∈ model.resources) : ∀ (items : List FilterItem) (joiner : Joiner),
      (∃ clause, itemsClause model r joiner items = .ok clause) ↔
        ∀ condition ∈ FilterItem.allConditions items, condition.1.Suits model r condition.2
  | [], _ => iff_of_true ⟨[], rfl⟩ (List.forall_mem_nil _)
  | item :: items, joiner => by
    rw [FilterItem.allConditions, List.forall_mem_append,
      ← exists_itemClause_iff resolved hr item joiner,
      ← exists_itemsClause_iff resolved hr items joiner]
    exact Outcome.exists_bind_eq_ok fun _ _ => Outcome.exists_bind_pure_eq_ok

end

/-- The trash can be asked for exactly where rows can be in it. -/
theorem exists_trashedOf_iff {filters : Filters} :
    (∃ trashed, trashedOf r filters = .ok trashed) ↔
      (filters.trashed = true → r.softDeleteColumn ≠ none) := by
  rw [trashedOf]
  cases filters.trashed <;> cases r.softDeleteColumn <;> simp

include resolved in
/-- Filters compile when their bounds are days, their conditions suit the resource, and they ask for
the trash only of a resource that has one. -/
theorem exists_compile_iff (hr : r ∈ model.resources) {filters : Filters} :
    (∃ compiled, compile model r filters = .ok compiled) ↔
      (Date.IsBound filters.lower ∧ Date.IsBound filters.upper) ∧
        (filters.trashed = true → r.softDeleteColumn ≠ none) ∧
        ∀ condition ∈ FilterItem.allConditions filters.items,
          condition.1.Suits model r condition.2 := by
  rw [← exists_rangeClause_iff r.timestampColumn, ← exists_trashedOf_iff,
    ← exists_itemsClause_iff resolved hr filters.items .and]
  exact Outcome.exists_bind_eq_ok fun _ _ => Outcome.exists_bind_eq_ok fun _ _ =>
    Outcome.exists_bind_pure_eq_ok

end Filtering

namespace Listing

variable {model : Model} {r : Resource}

/-- A query starts out when what it is to show is declared. -/
theorem exists_base_iff {eager columns : List String} :
    (∃ start, base r eager columns = .ok start) ↔ r.CanShow eager columns := by
  have hnames : (∃ start, base r eager columns = .ok start) ↔
      (∀ name ∈ columns, name ∈ r.columns.map Column.name) ∧
        ∀ name ∈ eager, name ∈ r.relations.map Relation.name := by
    simp only [← Resource.exists_requireColumn_iff, ← Resource.exists_requireRelation_iff,
      ← Outcome.exists_mapM_eq_ok_iff]
    exact Outcome.exists_bind_eq_ok fun _ _ => Outcome.exists_bind_pure_eq_ok
  rw [hnames]
  exact ⟨fun ⟨hcolumns, heager⟩ => ⟨hcolumns, heager⟩, fun h => ⟨h.columns, h.eager⟩⟩

/-- A search of a resolved resource finds all its fields. -/
theorem exists_searchClause_eq_ok (columned : r.Columned model) (term : Option String) :
    ∃ search, searchClause r term = .ok search := by
  cases term with
  | none => exact ⟨[], rfl⟩
  | some term =>
    rw [searchClause]
    split
    · exact ⟨[], rfl⟩
    · rw [Outcome.exists_bind_pure_eq_ok, Outcome.exists_mapM_eq_ok_iff]
      intro field hfield
      have hsearched := columned.searched field hfield
      rw [Resource.Searches] at hsearched
      rw [searchPredicate]
      cases hcut : Text.cutFirst '.' field.toList with
      | none => exact ⟨_, rfl⟩
      | some parts =>
        rw [hcut] at hsearched
        obtain ⟨relation, target, hrelated, _⟩ := hsearched
        have hrelation := (Model.related_eq_ok.mp hrelated).1
        rw [Outcome.exists_map_eq_ok]
        exact ⟨relation, Resource.requireRelation_eq_ok.mpr hrelation⟩

/-- An order is found exactly when its key is a declared column. -/
theorem exists_orderOf_iff {sort : Option SortKey} :
    (∃ order, orderOf r sort = .ok order) ↔
      ∀ key ∈ sort, key.key ∈ r.columns.map Column.name := by
  cases sort with
  | none => simp [orderOf]
  | some key =>
    simp [orderOf, Outcome.exists_map_eq_ok, Resource.exists_requireColumn_iff]

/-- Bounds on counts are accepted exactly when their relations are declared. -/
theorem exists_counts_iff {counts : List CountBound} :
    (∃ entries, counts.mapM (countEntry r) = .ok entries) ↔
      ∀ bound ∈ counts, bound.relation ∈ r.relations.map Relation.name := by
  simp only [Outcome.exists_mapM_eq_ok_iff, countEntry, Outcome.exists_map_eq_ok,
    Resource.exists_requireRelation_iff]

/-- What a listing of a resource may be asked for: everything that it names is declared, bounds read
as days, and the trash is asked for only where there is one. -/
structure Valid (model : Model) (r : Resource) (params : ListParams) (eager columns : List String) :
    Prop where
  shown : r.CanShow eager columns
  lower : Date.IsBound params.filters.lower
  upper : Date.IsBound params.filters.upper
  trashed : params.filters.trashed = true → r.softDeleteColumn ≠ none
  conditions : ∀ condition ∈ FilterItem.allConditions params.filters.items,
    condition.1.Suits model r condition.2
  sort : ∀ key ∈ params.sort, key.key ∈ r.columns.map Column.name
  counts : ∀ bound ∈ params.counts, bound.relation ∈ r.relations.map Relation.name

/-- Over a resolved model a listing is accepted exactly when it is valid. -/
theorem assembled_iff_valid {defs : Definitions} (resolved : Config.resolve defs = .ok model)
    (hr : r ∈ model.resources) (flavor : Flavor) (params : ListParams)
    (eager columns : List String) :
    (∃ listing, ofParams model r flavor params eager columns = .ok listing) ↔
      Valid model r params eager columns := by
  have columned := Config.columned_of_resolve resolved hr
  -- the stages one after another: each is reached only when those before it have passed
  have hstages : (∃ listing, ofParams model r flavor params eager columns = .ok listing) ↔
      (∃ start, base r eager columns = .ok start) ∧
      (∃ search, searchClause r params.search = .ok search) ∧
      (∃ compiled, Filtering.compile model r params.filters = .ok compiled) ∧
      (∃ order, orderOf r params.sort = .ok order) ∧
      ∃ entries, params.counts.mapM (countEntry r) = .ok entries := by
    rw [← filterClause_eq_compile]
    exact Outcome.exists_bind_eq_ok fun _ _ => Outcome.exists_bind_eq_ok fun _ _ =>
      Outcome.exists_bind_eq_ok fun _ _ => Outcome.exists_bind_eq_ok fun _ _ =>
      Outcome.exists_bind_pure_eq_ok
  rw [hstages, exists_base_iff, Filtering.exists_compile_iff resolved hr, exists_orderOf_iff,
    exists_counts_iff]
  constructor
  · rintro ⟨hshown, _, ⟨⟨hlower, hupper⟩, htrashed, hconditions⟩, hsort, hcounts⟩
    exact ⟨hshown, hlower, hupper, htrashed, hconditions, hsort, hcounts⟩
  · intro h
    exact ⟨h.shown, exists_searchClause_eq_ok columned params.search,
      ⟨⟨h.lower, h.upper⟩, h.trashed, h.conditions⟩, h.sort, h.counts⟩

/-- The trash may be asked for a range of days of the posts that comments belong to, in a group, but
not for a negated one. -/
theorem assembled_iff_valid_journal :
    let posts := Config.resolveResource Config.postsDef
    let asked (negated : Bool) : ListParams := {
      filters := {
        trashed := true
        items := [.anyOf [.condition
          ⟨[⟨"comments", false, false⟩, ⟨"post", true, false⟩], ⟨"created_at", negated, false⟩⟩
          (.range none (some "31-12-2024"))]]
      }
      sort := some ⟨"title", .ascending⟩
      counts := [⟨"comments", .atLeast, 1, false⟩] }
    (Config.resolve ⟨[Config.postsDef, Config.commentsDef]⟩ = .ok Config.journal ∧
        posts ∈ Config.journal.resources) ∧
      Valid Config.journal posts (asked false) ["comments"] ["title"] ∧
      ¬ ∃ listing, ofParams Config.journal posts .api (asked true) ["comments"] ["title"] =
        .ok listing := by
  intro posts asked
  have hposts : posts ∈ Config.journal.resources := List.mem_cons_self
  have hvalid := assembled_iff_valid Config.resolve_journal hposts .api
  refine ⟨⟨Config.resolve_journal, hposts⟩, (hvalid _ _ _).mp ⟨_, rfl⟩, fun h => ?_⟩
  have hcondition := ((hvalid _ _ _).mp h).conditions _ List.mem_cons_self
  cases hcondition.operand.1

end Listing

end Records
