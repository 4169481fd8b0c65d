import Records.Query.Select
import Records.Store.Evaluate

/-!
# Reading rows

The answer to a query: the visible rows that satisfy its clause, in its order, shown with the
columns and relations it asks for.  Rows that tie keep the order in which they are stored.
-/

set_option autoImplicit false

namespace Records

/-- The order of two rows by one column. -/
def Row.orderBy (column : String) (direction : SortDirection) (a b : Row) : Ordering :=
  let order := Json.orderOptional (Fields.get? a column) (Fields.get? b column)
  match direction with
  | .ascending => order
  | .descending => order.swap

/-- The order of two rows by several columns, the first that tells them apart deciding. -/
def Row.order (keys : List (String × SortDirection)) (a b : Row) : Ordering :=
  match keys with
  | [] => .eq
  | (column, direction) :: rest => (Row.orderBy column direction a b).then (Row.order rest a b)

namespace Store

/-- Whether a query sees a row. -/
def isVisible (r : Resource) (trashed : Trashed) (row : Row) : Bool :=
  match trashed with
  | .without => Row.isLive r row
  | .only => !Row.isLive r row

/-- Whether a query sees a row and its clause holds for it. -/
def isMatch (model : Model) (store : Store) (r : Resource) (query : Query) (row : Row) :
    Except Fault Bool :=
  if isVisible r query.trashed row then store.satisfies model r row query.clause else .ok false

/-- The rows that pass a test, in order, unless the test faults. -/
def passing (test : Row → Except Fault Bool) : List Row → Except Fault (List Row)
  | [] => .ok []
  | row :: rest => do
    let holds ← test row
    let others ← passing test rest
    return if holds then row :: others else others

/-- The rows that answer a query, in its order. -/
def matching (model : Model) (store : Store) (r : Resource) (query : Query) :
    Except Fault (List Row) :=
  (passing (store.isMatch model r query) (store.rows r.name)).map fun rows =>
    rows.mergeSort fun a b => (Row.order query.order a b).isLE

/-- What a relation shows of a row: all related rows, or the first of them. -/
def shownRelated (store : Store) (relation : Relation) (target : Resource) (row : Row) : Json :=
  let related := store.relatedRows relation target row
  if relation.isMany then .arr (related.map .obj)
  else
    match related with
    | first :: _ => .obj first
    | [] => .null

/-- Adds what a relation shows of a row. -/
def addRelated (model : Model) (store : Store) (r : Resource) (row shown : Row) (name : String) :
    Except Fault Row := do
  let (relation, target) ← model.related r name
  return Fields.put shown name (store.shownRelated relation target row)

/-- The columns of a row that a query shows. -/
def shownColumns (columns : List String) (row : Row) : Row :=
  if columns.isEmpty then row
  else Fields.ofWritten (columns.map fun c => (c, (Fields.get? row c).getD .null))

/-- What a query shows of a row. -/
def project (model : Model) (store : Store) (r : Resource) (query : Query) (row : Row) :
    Except Fault Json :=
  (query.eager.foldlM (store.addRelated model r row) (shownColumns query.columns row)).map .obj

/-- One page of the answer to a query. -/
def page (model : Model) (store : Store) (query : Query) (paging : Paging) :
    Except Fault (Page Json) := do
  let r ← model.requireResource query.resource
  let rows ← store.matching model r query
  let items ← ((rows.drop paging.offset).take paging.perPage).mapM (store.project model r query)
  return Page.of items rows.length paging

/-- The first row of the answer to a query, if there is one. -/
def first? (model : Model) (store : Store) (query : Query) : Except Fault (Option Json) := do
  let r ← model.requireResource query.resource
  let rows ← store.matching model r query
  match rows with
  | [] => return none
  | row :: _ => (store.project model r query row).map some

end Store

end Records
