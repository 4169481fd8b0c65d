import Records.Json.Print
import Records.Text.Utf8

/-!
# Bound values

Values travel to the database beside the statement, never inside it.  A value is bound as it is
where the type of its column is known, and as text otherwise.  Each bound value has a type that is
announced and a wire form of bytes; null has none.
-/

set_option autoImplicit false

namespace Records

/-- A value bound to a placeholder. -/
inductive BindValue where
  | null
  | bool (b : Bool)
  | int (n : Int)
  | double (d : Double)
  | text (s : String)
  | json (value : Json)
deriving Repr

namespace BindValue

/-- The bound value of a JSON value. -/
def typed : Json → BindValue
  | .null => .null
  | .bool b => .bool b
  | .int n => if Numeral.isInt64 n then .int n else .double (Double.ofInt n)
  | .double d => .double d
  | .str s => .text s
  | .arr items => .json (.arr items)
  | .obj fields => .json (.obj fields)

/-- The bound value of a JSON value for a column of unknown type: scalars are texts. -/
def untyped : Json → BindValue
  | .bool b => .text (Json.bool b).compact
  | .int n => .text (Json.int n).compact
  | .double d => .text (Json.double d).compact
  | value => typed value

/-- The type that is announced for a bound value. -/
def typeName : BindValue → String
  | .null => "TEXT"
  | .bool _ => "BOOL"
  | .int _ => "INT8"
  | .double _ => "FLOAT8"
  | .text _ => "TEXT"
  | .json _ => "JSONB"

/-- The lowest `count` bytes of a number, the highest first. -/
def bigEndian : Nat → Nat → List UInt8
  | 0, _ => []
  | count + 1, n => bigEndian count (n / 256) ++ [UInt8.ofNat (n % 256)]

/-- The wire form of a bound value; null has none. -/
def wire? : BindValue → Option (List UInt8)
  | .null => none
  | .bool b => some [if b then 1 else 0]
  | .int n => some (bigEndian 8 (n % (Nat.pow 2 64 : Nat)).toNat)
  | .double d => some (bigEndian 8 d.bits)
  | .text s => some (Text.utf8 s.toList)
  | .json value => some (1 :: Text.utf8 (Json.print value))

end BindValue

end Records
