import Records.Number.Double
import Records.Number.Numeral
import Records.Number.Literal

/-!
# JSON values

A JSON value, with integers and doubles kept apart and the fields of an object in the order in which
they were first written.  `put` keeps the position of a field that is already there and gives it the
new value, so an object has one field of a name however often the name was written.
-/

set_option autoImplicit false

namespace Records

/-- A JSON value. -/
inductive Json where
  | null
  | bool (b : Bool)
  | int (n : Int)
  | double (d : Double)
  | str (s : String)
  | arr (items : List Json)
  | obj (fields : List (String × Json))
deriving Repr, Inhabited

/-- The fields of an object, in order. -/
abbrev Fields := List (String × Json)

namespace Fields

/-- The value of a field. -/
def get? (fields : Fields) (name : String) : Option Json :=
  (fields.find? fun field => field.1 == name).map (·.2)

/-- Whether a field is there. -/
def has (fields : Fields) (name : String) : Bool := fields.any fun field => field.1 == name

/-- Gives a field a value: in its place when it is there, and at the end otherwise. -/
def put (fields : Fields) (name : String) (value : Json) : Fields :=
  match fields with
  | [] => [(name, value)]
  | (n, v) :: rest => if n == name then (n, value) :: rest else (n, v) :: put rest name value

/-- Gives a field a value unless it is there. -/
def putNew (fields : Fields) (name : String) (value : Json) : Fields :=
  if Fields.has fields name then fields else fields ++ [(name, value)]

/-- Puts written fields one after another. -/
def ofWritten (written : List (String × Json)) : Fields :=
  written.foldl (fun fields field => put fields field.1 field.2) []

end Fields

namespace Json

/-- The number of a number, whether written as an integer or as a double. -/
def double? : Json → Option Double
  | .int n => some (Double.ofInt n)
  | .double d => some d
  | _ => none

/-- A signed 64-bit integer. -/
def int64? : Json → Option Int
  | .int n => if Numeral.isInt64 n then some n else none
  | _ => none

/-- An unsigned 64-bit integer. -/
def nat64? : Json → Option Nat
  | .int n => if 0 ≤ n ∧ n ≤ Numeral.greatestNat64 then some n.toNat else none
  | _ => none

/-- The text of a string. -/
def str? : Json → Option String
  | .str s => some s
  | _ => none

/-- Whether a value is null. -/
def isNull : Json → Bool
  | .null => true
  | _ => false

/-- Whether a value is an array or an object. -/
def isCompound : Json → Bool
  | .arr _ => true
  | .obj _ => true
  | _ => false

/-- The value of a number. -/
def ofNumeric : Numeric → Json
  | .int n => .int n
  | .double d => .double d

/-- A value that may be absent, null standing for its absence. -/
def present? : Option Json → Option Json
  | some .null => none
  | value => value

end Json

end Records
