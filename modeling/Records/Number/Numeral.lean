/-!
# Decimal numerals

Reading and writing of integers in base ten.  A numeral is an optional sign and at least one ASCII
digit; leading zeros are allowed, blanks are not.  Readers for a bounded range accept a numeral
exactly when its value lies in the range.
-/

set_option autoImplicit false

namespace Records.Numeral

/-- The value of an ASCII digit. -/
def digit? (c : Char) : Option Nat :=
  if c.isDigit then some (c.toNat - '0'.toNat) else none

/-- The ASCII digit of a number below ten. -/
def digitChar (n : Nat) : Char := Char.ofNat ('0'.toNat + n % 10)

/-- The value of a run of digits, most significant first, continuing from `start`. -/
def valueFrom (start : Nat) : List Char → Option Nat
  | [] => some start
  | c :: rest =>
    match digit? c with
    | some d => valueFrom (10 * start + d) rest
    | none => none

/-- The value of a nonempty run of digits. -/
def nat? : List Char → Option Nat
  | [] => none
  | c :: rest => valueFrom 0 (c :: rest)

/-- The value of a numeral with an optional sign. -/
def signed? : List Char → Option Int
  | '+' :: rest => (nat? rest).map Int.ofNat
  | '-' :: rest => (nat? rest).map fun n => -(n : Int)
  | text => (nat? text).map Int.ofNat

/-- The value of a numeral with an optional plus sign. -/
def unsigned? : List Char → Option Nat
  | '+' :: rest => nat? rest
  | text => nat? text

/-- The least signed 64-bit integer. -/
def leastInt64 : Int := -9223372036854775808

/-- The greatest signed 64-bit integer. -/
def greatestInt64 : Int := 9223372036854775807

/-- The greatest unsigned 64-bit integer. -/
def greatestNat64 : Nat := 18446744073709551615

/-- The greatest unsigned 32-bit integer. -/
def greatestNat32 : Nat := 4294967295

/-- Whether an integer is a signed 64-bit integer. -/
def isInt64 (n : Int) : Bool := leastInt64 ≤ n && n ≤ greatestInt64

/-- Reads a signed 64-bit integer. -/
def int64? (text : String) : Option Int := (signed? text.toList).filter isInt64

/-- Reads a natural number up to a bound. -/
def natUpTo? (bound : Nat) (text : String) : Option Nat :=
  (unsigned? text.toList).filter fun n => n ≤ bound

/-- Reads an unsigned 64-bit integer. -/
def nat64? (text : String) : Option Nat := natUpTo? greatestNat64 text

/-- The digits of a natural number, without leading zeros. -/
def ofNat (n : Nat) : List Char :=
  if n < 10 then [digitChar n] else ofNat (n / 10) ++ [digitChar n]
termination_by n
decreasing_by omega

/-- The numeral of an integer: a minus sign for a negative one, then its digits. -/
def ofInt (n : Int) : List Char :=
  if n < 0 then '-' :: ofNat n.natAbs else ofNat n.natAbs

/-- The digits of a number on at least `width` places, zeros in front. -/
def padded (width n : Nat) : List Char :=
  let digits := ofNat n
  List.replicate (width - digits.length) '0' ++ digits

end Records.Numeral
