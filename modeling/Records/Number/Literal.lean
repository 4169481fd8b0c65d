import Records.Number.Double
import Records.Number.Numeral

/-!
# Number literals

A literal as it is written (sign, whole digits, fraction digits, exponent) and the number it names.
A literal without fraction and exponent that fits in 64 bits is an integer.  Every other one is a
double, read in two steps: the leading digits are gathered into one 64-bit integer, which is rounded
to a double, and that double is scaled by a power of ten with a second rounding.
-/

set_option autoImplicit false

namespace Records

/-- A number as it is written. -/
structure Literal where
  /-- Whether a minus sign stands in front. -/
  negative : Bool
  /-- The digits before the point. -/
  whole : List Char
  /-- The digits after the point; empty when there is no point. -/
  fraction : List Char
  /-- The exponent, when one is written. -/
  exponent : Option Int
deriving DecidableEq, Repr

/-- The number a literal names. -/
inductive Numeric where
  | int (n : Int)
  | double (d : Double)
deriving DecidableEq, Repr

namespace Literal

/-- The digits gathered so far: an integer of at most 64 bits and the power of ten it has to be
scaled by. -/
structure Gathered where
  significand : Nat
  scale : Int

/-- Whether one more digit still fits. -/
def fits (significand digit : Nat) : Bool :=
  10 * significand + digit ≤ Numeral.greatestNat64

/-- Gathers whole digits.  From the first that does not fit on, a digit only raises the scale. -/
def gatherWhole (g : Gathered) : List Nat → Gathered
  | [] => g
  | d :: rest =>
    if fits g.significand d then gatherWhole ⟨10 * g.significand + d, g.scale⟩ rest
    else ⟨g.significand, g.scale + (rest.length + 1 : Nat)⟩

/-- Gathers fraction digits.  The first that does not fit and those after it are dropped. -/
def gatherFraction (g : Gathered) : List Nat → Gathered
  | [] => g
  | d :: rest =>
    if fits g.significand d then gatherFraction ⟨10 * g.significand + d, g.scale - 1⟩ rest
    else g

/-- The double nearest to a power of ten of the finite range. -/
def powerOfTen (k : Nat) : Double := Double.ofInt (Nat.pow 10 k : Nat)

/-- The largest power of ten that is still a finite double. -/
def stride : Nat := 308

/-- Divides by `10 ^ stride` a number of times, stopping at zero. -/
def shrinkByStrides (d : Double) : Nat → Option Double
  | 0 => some d
  | n + 1 =>
    if d.rank = 0 then some d
    else
      match d.scaleDown? (powerOfTen stride) with
      | some e => shrinkByStrides e n
      | none => none

/-- Divides by `10 ^ k`, in strides while `k` exceeds one stride. -/
def shrink (d : Double) (k : Nat) : Option Double :=
  let strides := (k - 1) / stride
  match shrinkByStrides d strides with
  | some e => if e.rank = 0 then some e else e.scaleDown? (powerOfTen (k - stride * strides))
  | none => none

/-- Multiplies by `10 ^ k`; `none` when the product is infinite. -/
def grow (d : Double) (k : Nat) : Option Double :=
  if k ≤ stride then d.scaleUp? (powerOfTen k)
  else if d.rank = 0 then some d
  else none

/-- The double that gathered digits name. -/
def Gathered.double? (g : Gathered) (negative : Bool) : Option Double :=
  let start : Double := { Double.ofInt g.significand with negative := negative }
  if 0 ≤ g.scale then grow start g.scale.toNat else shrink start (-g.scale).toNat

/-- The values of a run of digits. -/
def digitValues (digits : List Char) : List Nat := digits.filterMap Numeral.digit?

/-- The double a literal names; `none` when it is infinite. -/
def double? (l : Literal) : Option Double :=
  let g := gatherFraction (gatherWhole ⟨0, 0⟩ (digitValues l.whole)) (digitValues l.fraction)
  Gathered.double? ⟨g.significand, g.scale + l.exponent.getD 0⟩ l.negative

/-- The integer a literal names: it has neither point nor exponent, lies in the range of 64-bit
integers, signed or unsigned, and is no negative zero. -/
def int? (l : Literal) : Option Int :=
  if l.fraction.isEmpty && l.exponent.isNone then
    match Numeral.nat? l.whole with
    | some n =>
      if l.negative then
        if n ≠ 0 ∧ n ≤ Nat.pow 2 63 then some (-(n : Int)) else none
      else if n ≤ Numeral.greatestNat64 then some n
      else none
    | none => none
  else none

/-- The number a literal names; `none` when it is infinite. -/
def value? (l : Literal) : Option Numeric :=
  match l.int? with
  | some n => some (.int n)
  | none => l.double?.map .double

end Literal

end Records
