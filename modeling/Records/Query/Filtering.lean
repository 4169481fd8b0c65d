import Records.Calendar
import Records.Filter.Items
import Records.Model
import Records.Query.Clause

/-!
# Filters as clauses

The filters of a listing become a clause over a resource.  A condition becomes one predicate on a
column, a range of days one predicate for each bound, and a path of relations a nest of tests on
related rows, checked against the resource reached at each step.  The mark `or:` of a column, or of
the first relation of a path, begins a new run.
-/

set_option autoImplicit false

namespace Records.Filtering

/-- The predicate for one bound of a range of days. -/
def boundClause (column : String) (bound : DateBound) : Option String → Except Fault Clause
  | none => .ok []
  | some raw => (Date.normalize raw).map fun day => [(.and, .date column bound day)]

/-- The predicates for a range of days. -/
def rangeClause (column : String) (lower upper : Option String) : Except Fault Clause := do
  let first ← boundClause column .lower lower
  let last ← boundClause column .upper upper
  return first ++ last

/-- The joiner of a segment inside a part that is joined by `joiner`. -/
def joinerOf (segment : Segment) (joiner : Joiner) : Joiner :=
  if segment.disjoin then .or else joiner

/-- The entries for a condition on a column of a resource. -/
def columnClause (r : Resource) (segment : Segment) (operand : Operand) (joiner : Joiner) :
    Except Fault Clause := do
  let column ← r.requireColumn segment.name
  let joiner := joinerOf segment joiner
  match operand with
  | .range lower upper =>
    if segment.negated then throw (.badRequest (.negatedRange column.name))
    let range ← rangeClause column.name lower upper
    match joiner with
    | .and => return range
    | .or => return Clause.addGroup [] .or range
  | .list items =>
    return [(joiner, .condition column.name (Test.ofValue segment.negated (.arr items)))]
  | .scalar value =>
    return [(joiner, .condition column.name (Test.ofValue segment.negated value))]

/-- The entries for a condition at the end of a path of relations. -/
def pathClause (model : Model) (r : Resource) (column : Segment) (operand : Operand)
    (joiner : Joiner) : List Segment → Except Fault Clause
  | [] => columnClause r column operand joiner
  | segment :: rest => do
    let (_, target) ← model.related r segment.name
    let inner ← pathClause model target column operand .and rest
    return [(joinerOf segment joiner, .related segment.name segment.negated inner)]

mutual

/-- The entries for a filter item that is joined by `joiner`. -/
def itemClause (model : Model) (r : Resource) (joiner : Joiner) :
    FilterItem → Except Fault Clause
  | .condition path operand => pathClause model r path.column operand joiner path.relations
  | .anyOf items => do
    let members ← itemsClause model r .or items
    return Clause.addGroup [] .and members

/-- The entries for filter items, one after another. -/
def itemsClause (model : Model) (r : Resource) (joiner : Joiner) :
    List FilterItem → Except Fault Clause
  | [] => .ok []
  | item :: items => do
    let first ← itemClause model r joiner item
    let rest ← itemsClause model r joiner items
    return first ++ rest

end

/-- Which rows some filters ask for, which a resource has to keep. -/
def trashedOf (r : Resource) (filters : Filters) : Except Fault Trashed :=
  if filters.trashed then
    if r.softDeleteColumn.isNone then .error (.badRequest (.noTrash r.name)) else .ok .only
  else .ok .without

/-- The clause for some filters, and which rows they ask for. -/
def compile (model : Model) (r : Resource) (filters : Filters) :
    Except Fault (Clause × Trashed) := do
  let bounds ← rangeClause r.timestampColumn filters.lower filters.upper
  let trashed ← trashedOf r filters
  let items ← itemsClause model r .and filters.items
  return (bounds ++ items, trashed)

end Records.Filtering
