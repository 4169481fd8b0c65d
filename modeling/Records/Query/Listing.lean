import Records.Params.Listing
import Records.Query.Filtering
import Records.Query.Select

/-!
# From parameters to a query

The parameters of a listing become one query: a group for the search, a group for the filters, a
group for the counts, joined by `and`, and an order that ends with the primary key.
-/

set_option autoImplicit false

namespace Records

/-- A query for a page of rows. -/
structure Listing where
  query : Query
  paging : Paging
deriving Repr

namespace Listing

/-- A query that shows some columns and some relations, which have to exist. -/
def base (r : Resource) (eager columns : List String) : Except Fault Query := do
  let columns ← columns.mapM r.requireColumn
  let relations ← eager.mapM r.requireRelation
  return {
    resource := r.name
    columns := columns.map Column.name
    eager := relations.map Relation.name
  }

/-- The predicate that a search field contains a term: a column, or a column of a related row. -/
def searchPredicate (r : Resource) (term field : String) : Except Fault Predicate :=
  match Text.cutFirst '.' field.toList with
  | some (relation, column) =>
    let name := String.ofList relation
    (r.requireRelation name).map fun _ =>
      .related name false [(.and, .contains (String.ofList column) term)]
  | none => .ok (.contains field term)

/-- The group for a search: some search field contains the term. -/
def searchClause (r : Resource) : Option String → Except Fault Clause
  | none => .ok []
  | some term =>
    if term.isEmpty then .ok []
    else do
      let predicates ← r.searchable.mapM (searchPredicate r term)
      return predicates.map fun predicate => (.or, predicate)

/-- The clause for the filters, and which rows they ask for. -/
def filterClause (model : Model) (r : Resource) (filters : Filters) :
    Except Fault (Clause × Trashed) :=
  if filters.isEmpty then .ok ([], .without) else Filtering.compile model r filters

/-- The order of a listing: by the sort column, else the latest first; then by the primary key. -/
def orderOf (r : Resource) : Option SortKey → Except Fault (List (String × SortDirection))
  | none => .ok (withKey r.timestampColumn .descending)
  | some sort => (r.requireColumn sort.key).map fun column => withKey column.name sort.direction
where
  /-- An order by a column and then by the primary key, in one direction. -/
  withKey (column : String) (direction : SortDirection) : List (String × SortDirection) :=
    if column = r.primaryKey then [(column, direction)]
    else [(column, direction), (r.primaryKey, direction)]

/-- The entry for a constraint on the number of related rows. -/
def countEntry (r : Resource) (c : CountBound) : Except Fault (Joiner × Predicate) :=
  (r.requireRelation c.relation).map fun _ =>
    (if c.disjoin then .or else .and, .count c.relation c.comparator c.count)

/-- The query for the parameters of a listing. -/
def ofParams (model : Model) (r : Resource) (flavor : Flavor) (params : ListParams)
    (eager columns : List String) : Except Fault Listing := do
  let start ← base r eager columns
  let search ← searchClause r params.search
  let (filters, trashed) ← filterClause model r params.filters
  let order ← orderOf r params.sort
  let counts ← params.counts.mapM (countEntry r)
  let clause := Clause.addGroup (Clause.addGroup (Clause.addGroup [] .and search) .and filters)
    .and counts
  return {
    query := { start with clause := clause, trashed := trashed, order := order }
    paging := ⟨params.pageNumber, params.pageSize flavor⟩
  }

end Listing

end Records
