import Records.Proofs.Config.Columns
import Records.Proofs.Params.Reading
import Records.Proofs.Query.WellFormed
import Records.Query.Listing

/-!
# The parts of a listing's query

The query of a listing has at most three entries, a group for the search, one for the filters and
one for the counts (`ofParams_eq_ok`), and over a resolved model its clause is well formed
(`ofParams_wellFormed`).
-/

set_option autoImplicit false

namespace Records

/-- A clause with a group added resolves exactly when the clause and the group do. -/
theorem Clause.resolves_addGroup (model : Model) (r : Resource) (clause other : Clause)
    (joiner : Joiner) :
    Clause.Resolves model r (Clause.addGroup clause joiner other) ↔
      Clause.Resolves model r clause ∧ Clause.Resolves model r other := by
  cases other with
  | nil => simp [addGroup, Clause.Resolves]
  | cons entry rest =>
    simp [addGroup, Clause.resolves_append, Clause.Resolves, Predicate.Resolves]

namespace Filtering

variable {model : Model} {r : Resource} {depth : Nat} {joiner : Joiner} {clause : Clause}

/-- The entry for a bound on a declared column is well formed. -/
theorem boundClause_wellFormed {column : String} (hcolumn : r.hasColumn column = true)
    {bound : DateBound} {raw : Option String} (h : boundClause column bound raw = .ok clause) :
    Clause.WellFormed model r depth clause := by
  cases raw with
  | none =>
    cases h
    exact trivial
  | some raw =>
    obtain ⟨day, _, rfl⟩ := Outcome.map_eq_ok.mp h
    exact ⟨hcolumn, trivial⟩

/-- The entries for a range of a declared column are well formed. -/
theorem rangeClause_wellFormed {column : String} (hcolumn : r.hasColumn column = true)
    {lower upper : Option String} (h : rangeClause column lower upper = .ok clause) :
    Clause.WellFormed model r depth clause := by
  obtain ⟨first, hfirst, h⟩ := Outcome.bind_eq_ok.mp h
  obtain ⟨last, hlast, h⟩ := Outcome.bind_eq_ok.mp h
  cases h
  exact (Clause.wellFormed_append model r depth first last).mpr
    ⟨boundClause_wellFormed hcolumn hfirst, boundClause_wellFormed hcolumn hlast⟩

/-- The entries for a column are well formed. -/
theorem columnClause_wellFormed {segment : Segment} {operand : Operand}
    (h : columnClause r segment operand joiner = .ok clause) :
    Clause.WellFormed model r depth clause := by
  obtain ⟨column, hfound, h⟩ := Outcome.bind_eq_ok.mp h
  have hcolumn : r.hasColumn column.name = true := by
    rw [Resource.name_of_requireColumn hfound]
    exact Resource.hasColumn_of_requireColumn ⟨column, hfound⟩
  cases operand with
  | scalar value =>
    cases h
    exact ⟨hcolumn, trivial⟩
  | list values =>
    cases h
    exact ⟨hcolumn, trivial⟩
  | range lower upper =>
    simp only at h
    split at h
    · cases h
    · obtain ⟨range, hrange, h⟩ := Outcome.bind_eq_ok.mp h
      have hrange : Clause.WellFormed model r depth range := rangeClause_wellFormed hcolumn hrange
      split at h
      · cases h
        exact hrange
      · cases h
        exact (Clause.wellFormed_addGroup model r depth [] range .or).mpr ⟨trivial, hrange⟩

/-- A path of relations nests as many relations as it has segments. -/
theorem pathClause_wellFormed {column : Segment} {operand : Operand} {path : List Segment}
    (hlength : path.length ≤ depth)
    (h : pathClause model r column operand joiner path = .ok clause) :
    Clause.WellFormed model r depth clause := by
  induction path generalizing r depth joiner clause with
  | nil => exact columnClause_wellFormed h
  | cons segment rest ih =>
    -- the segment takes one level, and the rest of the path starts at its target
    rw [List.length_cons] at hlength
    obtain ⟨⟨relation, target⟩, hrelated, h⟩ := Outcome.bind_eq_ok.mp h
    obtain ⟨inner, hinner, h⟩ := Outcome.bind_eq_ok.mp h
    cases h
    have hrest : Clause.WellFormed model target (depth - 1) inner := ih (by omega) hinner
    exact ⟨⟨by omega, relation, target, hrelated, hrest⟩, trivial⟩

mutual

/-- The entries for an item that reaches no deeper than allowed are well formed. -/
theorem itemClause_wellFormed : ∀ (item : FilterItem) {joiner : Joiner} {clause : Clause},
    item.reach ≤ depth → itemClause model r joiner item = .ok clause →
      Clause.WellFormed model r depth clause
  | .condition path operand, _, _, hreach, h => pathClause_wellFormed hreach h
  | .anyOf items, _, _, hreach, h => by
    obtain ⟨members, hmembers, h⟩ := Outcome.bind_eq_ok.mp h
    cases h
    exact (Clause.wellFormed_addGroup model r depth [] members .and).mpr
      ⟨trivial, itemsClause_wellFormed items hreach hmembers⟩

/-- The entries for items that reach no deeper than allowed are well formed. -/
theorem itemsClause_wellFormed : ∀ (items : List FilterItem) {joiner : Joiner} {clause : Clause},
    FilterItem.reaches items ≤ depth → itemsClause model r joiner items = .ok clause →
      Clause.WellFormed model r depth clause
  | [], _, _, _, h => by
    cases h
    exact trivial
  | item :: items, _, _, hreach, h => by
    obtain ⟨hfirst, hrest⟩ := Nat.max_le.mp hreach
    obtain ⟨first, hitem, h⟩ := Outcome.bind_eq_ok.mp h
    obtain ⟨rest, hitems, h⟩ := Outcome.bind_eq_ok.mp h
    cases h
    exact (Clause.wellFormed_append model r depth first rest).mpr
      ⟨itemClause_wellFormed item hfirst hitem, itemsClause_wellFormed items hrest hitems⟩

end

/-- The clause of some filters is well formed. -/
theorem compile_wellFormed (htimestamp : r.hasColumn r.timestampColumn = true) {filters : Filters}
    (hreach : FilterItem.reaches filters.items ≤ depth) {trashed : Trashed}
    (h : compile model r filters = .ok (clause, trashed)) :
    Clause.WellFormed model r depth clause := by
  obtain ⟨bounds, hbounds, h⟩ := Outcome.bind_eq_ok.mp h
  obtain ⟨_, _, h⟩ := Outcome.bind_eq_ok.mp h
  obtain ⟨items, hitems, h⟩ := Outcome.bind_eq_ok.mp h
  cases h
  exact (Clause.wellFormed_append model r depth bounds items).mpr
    ⟨rangeClause_wellFormed htimestamp hbounds, itemsClause_wellFormed _ hreach hitems⟩

/-- Bounds of days name no relation. -/
theorem rangeClause_resolves {column : String} {lower upper : Option String}
    (h : rangeClause column lower upper = .ok clause) : Clause.Resolves model r clause := by
  have hbound : ∀ {bound : DateBound} {raw : Option String} {clause : Clause},
      boundClause column bound raw = .ok clause → Clause.Resolves model r clause := by
    intro bound raw clause h
    cases raw with
    | none =>
      cases h
      exact trivial
    | some raw =>
      obtain ⟨day, _, rfl⟩ := Outcome.map_eq_ok.mp h
      exact ⟨trivial, trivial⟩
  obtain ⟨first, hfirst, h⟩ := Outcome.bind_eq_ok.mp h
  obtain ⟨last, hlast, h⟩ := Outcome.bind_eq_ok.mp h
  cases h
  exact (Clause.resolves_append model r first last).mpr ⟨hbound hfirst, hbound hlast⟩

/-- Filters compile only when their relations resolve. -/
theorem compile_resolves {filters : Filters} {trashed : Trashed}
    (h : compile model r filters = .ok (clause, trashed)) : Clause.Resolves model r clause := by
  obtain ⟨bounds, hbounds, h⟩ := Outcome.bind_eq_ok.mp h
  obtain ⟨_, _, h⟩ := Outcome.bind_eq_ok.mp h
  obtain ⟨items, hitems, h⟩ := Outcome.bind_eq_ok.mp h
  cases h
  exact (Clause.resolves_append model r bounds items).mpr
    ⟨rangeClause_resolves hbounds, (itemsClause_wellFormed _ (Nat.le_refl _) hitems).resolves⟩

variable (model) in
/-- Filters that compile ask for trashed rows alone when their switch is set, which only a resource
with a trash mark accepts, and for live rows otherwise. -/
theorem trashed_of_compile {filters : Filters} {trashed : Trashed}
    (h : compile model r filters = .ok (clause, trashed)) :
    trashed = (if filters.trashed then .only else .without) ∧
      (filters.trashed = true → r.softDeleteColumn ≠ none) := by
  obtain ⟨_, _, h⟩ := Outcome.bind_eq_ok.mp h
  obtain ⟨which, hwhich, h⟩ := Outcome.bind_eq_ok.mp h
  obtain ⟨_, _, h⟩ := Outcome.bind_eq_ok.mp h
  cases h
  rw [trashedOf] at hwhich
  cases hswitch : filters.trashed with
  | false =>
    rw [hswitch] at hwhich
    cases hwhich
    simp
  | true =>
    rw [hswitch] at hwhich
    cases hcolumn : r.softDeleteColumn with
    | none => simp [hcolumn] at hwhich
    | some column =>
      simp only [hcolumn] at hwhich
      cases hwhich
      simp

end Filtering

namespace Listing

variable (model : Model) (r : Resource)

/-- Filters that ask nothing compile to the empty clause, so skipping them changes nothing. -/
theorem filterClause_eq_compile (filters : Filters) :
    filterClause model r filters = Filtering.compile model r filters := by
  rw [filterClause]
  split
  · rename_i hempty
    obtain ⟨lower, upper, trashed, items⟩ := filters
    simp only [Filters.isEmpty, Bool.and_eq_true, Option.isNone_iff_eq_none, Bool.not_eq_true',
      List.isEmpty_iff] at hempty
    obtain ⟨⟨⟨rfl, rfl⟩, rfl⟩, rfl⟩ := hempty
    rfl
  · rfl

/-- The entry for a constraint on counts. -/
def entryOfBound (bound : CountBound) : Joiner × Predicate :=
  (if bound.disjoin then .or else .and, .count bound.relation bound.comparator bound.count)

/-- The entry for a bound on a count is made as it stands, once its relation is found. -/
theorem countEntry_eq_ok {bound : CountBound} {entry : Joiner × Predicate}
    (h : countEntry r bound = .ok entry) :
    entry = entryOfBound bound ∧ ∃ relation, r.requireRelation bound.relation = .ok relation := by
  obtain ⟨relation, hrelation, rfl⟩ := Outcome.map_eq_ok.mp h
  exact ⟨rfl, relation, hrelation⟩

/-- A query that starts out shows the columns and relations asked for, all of which exist. -/
theorem base_eq_ok {eager columns : List String} {start : Query}
    (h : base r eager columns = .ok start) :
    start = { resource := r.name, columns := columns, eager := eager } ∧
      (∀ name ∈ columns, ∃ column, r.requireColumn name = .ok column) ∧
      ∀ name ∈ eager, ∃ relation, r.requireRelation name = .ok relation := by
  obtain ⟨found, hcolumns, h⟩ := Outcome.bind_eq_ok.mp h
  obtain ⟨relations, hrelations, h⟩ := Outcome.bind_eq_ok.mp h
  cases h
  have hcnames : found.map Column.name = columns :=
    Outcome.map_eq_of_mapM_eq_ok Resource.name_of_requireColumn hcolumns
  have hrnames : relations.map Relation.name = eager :=
    Outcome.map_eq_of_mapM_eq_ok Resource.name_of_requireRelation hrelations
  exact ⟨by rw [hcnames, hrnames], Outcome.forall_of_mapM_eq_ok hcolumns,
    Outcome.forall_of_mapM_eq_ok hrelations⟩

variable {r} in
/-- An order ends with the primary key. -/
theorem getLast?_of_orderOf {sort : Option SortKey} {order : List (String × SortDirection)}
    (h : orderOf r sort = .ok order) :
    ∃ direction, order.getLast? = some (r.primaryKey, direction) := by
  have hwith : ∀ column direction,
      (orderOf.withKey r column direction).getLast? = some (r.primaryKey, direction) := by
    intro column direction
    rw [orderOf.withKey]
    split
    · rename_i hkey
      rw [hkey]
      rfl
    · rfl
  cases sort with
  | none =>
    cases h
    exact ⟨_, hwith _ _⟩
  | some sort =>
    obtain ⟨column, _, rfl⟩ := Outcome.map_eq_ok.mp h
    exact ⟨_, hwith _ _⟩

/-- What a listing that is accepted consists of. -/
theorem ofParams_eq_ok {flavor : Flavor} {params : ListParams} {eager columns : List String}
    {listing : Listing} (h : ofParams model r flavor params eager columns = .ok listing) :
    ∃ search filters trashed order,
      searchClause r params.search = .ok search ∧
      Filtering.compile model r params.filters = .ok (filters, trashed) ∧
      orderOf r params.sort = .ok order ∧
      (∀ bound ∈ params.counts, ∃ relation, r.requireRelation bound.relation = .ok relation) ∧
      (∀ name ∈ columns, ∃ column, r.requireColumn name = .ok column) ∧
      (∀ name ∈ eager, ∃ relation, r.requireRelation name = .ok relation) ∧
      listing = {
        query := {
          resource := r.name
          columns := columns
          clause := Clause.addGroup (Clause.addGroup (Clause.addGroup [] .and search) .and filters)
            .and (params.counts.map entryOfBound)
          trashed := trashed
          eager := eager
          order := order
        }
        paging := ⟨params.pageNumber, params.pageSize flavor⟩
      } := by
  obtain ⟨start, hbase, h⟩ := Outcome.bind_eq_ok.mp h
  obtain ⟨search, hsearch, h⟩ := Outcome.bind_eq_ok.mp h
  obtain ⟨⟨filters, trashed⟩, hfilters, h⟩ := Outcome.bind_eq_ok.mp h
  obtain ⟨order, horder, h⟩ := Outcome.bind_eq_ok.mp h
  obtain ⟨counts, hcounts, h⟩ := Outcome.bind_eq_ok.mp h
  cases h
  obtain ⟨rfl, hcolumns, heager⟩ := base_eq_ok r hbase
  -- a bound on a count is only checked: its entry does not depend on what is found
  obtain rfl := Outcome.eq_map_of_mapM_eq_ok (fun h => (countEntry_eq_ok r h).1) hcounts
  have hbounds : ∀ bound ∈ params.counts,
      ∃ relation, r.requireRelation bound.relation = .ok relation := by
    intro bound hbound
    obtain ⟨entry, hentry⟩ := Outcome.forall_of_mapM_eq_ok hcounts bound hbound
    exact (countEntry_eq_ok r hentry).2
  rw [filterClause_eq_compile] at hfilters
  exact ⟨search, filters, trashed, order, hsearch, hfilters, horder, hbounds, hcolumns, heager,
    rfl⟩

/-- The query of a listing is for its resource, shows the relations asked for, and is ordered by the
key at last. -/
theorem query_of_ofParams {flavor : Flavor} {params : ListParams} {eager columns : List String}
    {listing : Listing} (h : ofParams model r flavor params eager columns = .ok listing) :
    listing.query.resource = r.name ∧ listing.query.eager = eager ∧
      ∃ direction, listing.query.order.getLast? = some (r.primaryKey, direction) := by
  obtain ⟨_, _, _, _, _, _, horder, _, _, _, rfl⟩ := ofParams_eq_ok model r h
  exact ⟨rfl, rfl, getLast?_of_orderOf horder⟩

/-- The predicate for a search field. -/
def predicateOfField (term field : String) : Predicate :=
  match Text.cutFirst '.' field.toList with
  | some (relation, column) =>
    .related (String.ofList relation) false [(.and, .contains (String.ofList column) term)]
  | none => .contains field term

/-- The entries of a search. -/
def entriesOfSearch : Option String → Clause
  | none => []
  | some term =>
    if term.isEmpty then []
    else r.searchable.map fun field => (.or, predicateOfField term field)

/-- The predicate for a searched field is made as it stands, once the field is found. -/
theorem searchPredicate_eq_ok {term field : String} {predicate : Predicate}
    (h : searchPredicate r term field = .ok predicate) :
    predicate = predicateOfField term field := by
  rw [searchPredicate] at h
  rw [predicateOfField]
  split at h
  · obtain ⟨_, _, rfl⟩ := Outcome.map_eq_ok.mp h
    simp [*]
  · cases h
    simp [*]

/-- A search tests every search field. -/
theorem searchClause_eq_ok {term : Option String} {search : Clause}
    (h : searchClause r term = .ok search) : search = entriesOfSearch r term := by
  cases term with
  | none =>
    cases h
    rfl
  | some term =>
    rw [searchClause] at h
    rw [entriesOfSearch]
    split at h
    · cases h
      simp [*]
    · rename_i hterm
      obtain ⟨predicates, hpredicates, h⟩ := Outcome.bind_eq_ok.mp h
      cases h
      have heq : predicates = r.searchable.map (predicateOfField term) :=
        Outcome.eq_map_of_mapM_eq_ok (searchPredicate_eq_ok r) hpredicates
      simp [heq, hterm]

variable {model r} {depth : Nat}

/-- The predicate for a field that the resource searches is well formed. -/
theorem predicateOfField_wellFormed {field : String} (hfield : r.Searches model field)
    (hdepth : 1 ≤ depth) (term : String) :
    (predicateOfField term field).WellFormed model r depth := by
  rw [predicateOfField]
  rw [Resource.Searches] at hfield
  cases hcut : Text.cutFirst '.' field.toList with
  | none =>
    rw [hcut] at hfield
    exact hfield
  | some parts =>
    rw [hcut] at hfield
    obtain ⟨relation, target, hrelated, hcolumn⟩ := hfield
    exact ⟨hdepth, relation, target, hrelated, hcolumn, trivial⟩

/-- The entries for a search are well formed. -/
theorem entriesOfSearch_wellFormed (columned : r.Columned model) (hdepth : 1 ≤ depth)
    (term : Option String) : Clause.WellFormed model r depth (entriesOfSearch r term) := by
  cases term with
  | none => exact trivial
  | some term =>
    rw [entriesOfSearch]
    split
    · exact trivial
    · rw [Clause.wellFormed_iff]
      intro entry hentry
      obtain ⟨field, hfield, rfl⟩ := List.mem_map.mp hentry
      exact predicateOfField_wellFormed (columned.searched field hfield) hdepth term

/-- The clause of a listing is well formed, nested no deeper than a search or its filters. -/
theorem ofParams_wellFormed (sound : model.Sound) (hr : r ∈ model.resources)
    (columned : r.Columned model) {flavor : Flavor} {params : ListParams}
    {eager columns : List String} {listing : Listing}
    (h : ofParams model r flavor params eager columns = .ok listing) (hdepth : 1 ≤ depth)
    (hreach : FilterItem.reaches params.filters.items ≤ depth) :
    Clause.WellFormed model r depth listing.query.clause := by
  obtain ⟨search, filters, trashed, order, hsearch, hfilters, _, hcounts, _, _, rfl⟩ :=
    ofParams_eq_ok model r h
  obtain rfl := searchClause_eq_ok r hsearch
  simp only [Clause.wellFormed_addGroup]
  refine ⟨⟨⟨trivial, entriesOfSearch_wellFormed columned hdepth params.search⟩,
    Filtering.compile_wellFormed columned.timestamp hreach hfilters⟩, ?_⟩
  rw [Clause.wellFormed_iff]
  intro entry hentry
  obtain ⟨bound, hbound, rfl⟩ := List.mem_map.mp hentry
  obtain ⟨relation, hrelation⟩ := hcounts bound hbound
  obtain ⟨target, htarget⟩ := sound.related_of_requireRelation hr hrelation
  exact ⟨relation, target, htarget⟩

/-- The relations in the query of a listing resolve, however deep its filters reach. -/
theorem ofParams_resolves (sound : model.Sound) (hr : r ∈ model.resources)
    (columned : r.Columned model) {flavor : Flavor} {params : ListParams}
    {eager columns : List String} {listing : Listing}
    (h : ofParams model r flavor params eager columns = .ok listing) :
    Clause.Resolves model r listing.query.clause :=
  (ofParams_wellFormed sound hr columned h (Nat.le_max_left 1 _) (Nat.le_max_right 1 _)).resolves

end Listing

end Records
