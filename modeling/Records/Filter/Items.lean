import Records.Filter.Path
import Records.Json.Value

/-!
# Filters

What a client asks of the rows of a listing: bounds on the time stamp, the trash switch, and
conditions on columns, alone or gathered in `or` groups.  Filters are read from one JSON object, in
the order of its fields.
-/

set_option autoImplicit false

namespace Records

/-- What a condition compares its column with. -/
inductive Operand where
  /-- One value; a value that is read is neither an array nor an object. -/
  | scalar (value : Json)
  | list (values : List Json)
  | range (lower upper : Option String)
deriving Repr

/-- A condition, or a group of items one of which has to hold. -/
inductive FilterItem where
  | condition (path : FilterPath) (operand : Operand)
  | anyOf (items : List FilterItem)
deriving Repr

/-- What a client asks of the rows of a listing. -/
structure Filters where
  /-- The first day of the time stamp. -/
  lower : Option String := none
  /-- The last day of the time stamp. -/
  upper : Option String := none
  /-- Whether only trashed rows are listed. -/
  trashed : Bool := false
  items : List FilterItem := []
deriving Repr

/-- Reads a bound of a range of days; null and the empty text are no bound. -/
def dayBound (name : String) : Option Json → Except Fault (Option String)
  | none => .ok none
  | some .null => .ok none
  | some (.str s) => .ok (if s.isEmpty then none else some s)
  | some _ => .error (.invalid (.dayBound name))

/-- Whether an object is a range of days. -/
def hasDayBounds (fields : Fields) : Bool := Fields.has fields "from" || Fields.has fields "to"

namespace Operand

/-- Reads what a condition compares with. -/
def parse (name : String) : Json → Except Fault Operand
  | .obj fields =>
    if hasDayBounds fields then do
      let lower ← dayBound name (Fields.get? fields "from")
      let upper ← dayBound name (Fields.get? fields "to")
      return .range lower upper
    else .error (.invalid (.filterValue name))
  | .arr values =>
    if values.any Json.isCompound then .error (.invalid (.filterListItem name))
    else .ok (.list values)
  | value => .ok (.scalar value)

end Operand

namespace FilterItem

/-- Reads a condition: its path first, then its operand. -/
def parseCondition (field : String × Json) : Except Fault FilterItem := do
  let path ← FilterPath.parse field.1
  let operand ← Operand.parse field.1 field.2
  return .condition path operand

/-- The members of a group: the fields of an object under the name `or` that is no range. -/
def members? (field : String × Json) : Option Fields :=
  match field.2 with
  | .obj fields => if field.1 = "or" ∧ !hasDayBounds fields then some fields else none
  | _ => none

/-- Reads a member of a group, which is no group itself. -/
def parseMember (field : String × Json) : Except Fault FilterItem :=
  match members? field with
  | some _ => .error (.invalid .nestedOrGroup)
  | none => parseCondition field

/-- Reads an item. -/
def parse (field : String × Json) : Except Fault FilterItem :=
  match members? field with
  | some fields => (fields.mapM parseMember).map .anyOf
  | none => parseCondition field

end FilterItem

namespace Filters

/-- Whether a field is an item: it is no bound, nor the switch that shows trashed rows. -/
def isItem (trashed : Bool) (name : String) : Bool :=
  name ≠ "from" && name ≠ "to" && !(trashed && name = "status")

/-- Whether the fields ask for trashed rows. -/
def asksTrashed (fields : Fields) : Bool :=
  (Fields.get? fields "status").bind Json.str? = some "trashed"

/-- Reads filters: both bounds first, then the items in order. -/
def parse : Json → Except Fault Filters
  | .null => .ok {}
  | .obj fields => do
    let lower ← dayBound "from" (Fields.get? fields "from")
    let upper ← dayBound "to" (Fields.get? fields "to")
    let trashed := asksTrashed fields
    let items ← (fields.filter fun field => isItem trashed field.1).mapM FilterItem.parse
    return { lower := lower, upper := upper, trashed := trashed, items := items }
  | _ => .error (.invalid .filtersShape)

/-- Whether filters ask nothing. -/
def isEmpty (filters : Filters) : Bool :=
  filters.lower.isNone && filters.upper.isNone && !filters.trashed && filters.items.isEmpty

end Filters

end Records
