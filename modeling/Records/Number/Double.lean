/-!
# Finite doubles

A finite binary64 number is a sign together with the *rank* of its magnitude: the position of that
magnitude in the increasing list of all nonnegative doubles.  The rank of a magnitude is also its
bit pattern, so order, equality and the wire form are all read off one natural number.

Rounding is to the nearest double, ties to an even significand, and is computed exactly on natural
numbers; nothing here runs machine floating point.
-/

set_option autoImplicit false

namespace Records

/-- The rank that infinity would have: the first one past the largest finite magnitude. -/
def Double.infinityRank : Nat := 0x7FF0000000000000

/-- A finite binary64 number. -/
structure Double where
  /-- Whether the sign bit is set; a negative zero is kept apart from zero. -/
  negative : Bool
  /-- The position of the magnitude among all nonnegative doubles. -/
  rank : Nat
  rank_lt : rank < Double.infinityRank
deriving DecidableEq, Repr

namespace Double

/-- The largest finite magnitude's rank. -/
def greatestRank : Nat := infinityRank - 1

/-- The integer by which doubles are ordered: both zeros sit at `0`. -/
def key (d : Double) : Int :=
  if d.negative then -(d.rank : Int) else d.rank

/-- Doubles are compared as numbers, so the two zeros are equal. -/
def order (a b : Double) : Ordering := compare a.key b.key

/-- The integer significand `m` of the magnitude `m * 2 ^ q`. -/
def significand (d : Double) : Nat :=
  if d.rank < Nat.pow 2 52 then d.rank else Nat.pow 2 52 + d.rank % Nat.pow 2 52

/-- The binary exponent `q` of the magnitude `m * 2 ^ q`. -/
def exponent (d : Double) : Int :=
  if d.rank < Nat.pow 2 52 then -1074 else (d.rank / Nat.pow 2 52 : Nat) - 1075

/-- The 64-bit pattern: the sign bit over the rank. -/
def bits (d : Double) : Nat :=
  if d.negative then Nat.pow 2 63 + d.rank else d.rank

/-- The quotient `num / den` rounded to the nearest integer, a tie going to the even one. -/
def roundQuotient (num den : Nat) : Nat :=
  let whole := num / den
  let rest := 2 * (num % den)
  if den < rest ∨ (rest = den ∧ whole % 2 = 1) then whole + 1 else whole

/-- The floor of the binary logarithm of a positive ratio. -/
def logRatio (num den : Nat) : Int :=
  let guess : Int := (num.log2 : Int) - den.log2
  let reached : Bool :=
    if 0 ≤ guess then decide (den * Nat.pow 2 guess.toNat ≤ num)
    else decide (den ≤ num * Nat.pow 2 (-guess).toNat)
  if reached then guess else guess - 1

/-- The rank of the double nearest to `num / den`.  It reaches `infinityRank` when the ratio is too
large for a finite double. -/
def rankOfRatio (num den : Nat) : Nat :=
  if num = 0 then 0
  else
    let q : Int := max (-1074) (logRatio num den - 52)
    let m := roundQuotient (num * Nat.pow 2 (-q).toNat) (den * Nat.pow 2 q.toNat)
    (q + 1074).toNat * Nat.pow 2 52 + m

/-- The double of a sign and a rank, when the rank is finite. -/
def ofRank? (negative : Bool) (rank : Nat) : Option Double :=
  if h : rank < infinityRank then some ⟨negative, rank, h⟩ else none

/-- The double nearest to a ratio of natural numbers; `none` when that is infinite. -/
def ofRatio? (negative : Bool) (num den : Nat) : Option Double :=
  ofRank? negative (rankOfRatio num den)

/-- The double nearest to an integer.  An integer beyond the finite range gives the greatest finite
magnitude; every 64-bit integer is far inside that range. -/
def ofInt (n : Int) : Double :=
  ⟨decide (n < 0), min (rankOfRatio n.natAbs 1) greatestRank,
    Nat.lt_of_le_of_lt (Nat.min_le_right _ _) (by decide)⟩

/-- The numerator of the magnitude as a ratio of natural numbers. -/
def numerator (d : Double) : Nat := d.significand * Nat.pow 2 d.exponent.toNat

/-- The denominator of the magnitude as a ratio of natural numbers. -/
def denominator (d : Double) : Nat := Nat.pow 2 (-d.exponent).toNat

/-- The product with a nonnegative double, rounded; `none` when it is infinite. -/
def scaleUp? (d factor : Double) : Option Double :=
  ofRatio? d.negative (d.numerator * factor.numerator) (d.denominator * factor.denominator)

/-- The quotient by a positive double, rounded; `none` when it is infinite. -/
def scaleDown? (d divisor : Double) : Option Double :=
  ofRatio? d.negative (d.numerator * divisor.denominator) (d.denominator * divisor.numerator)

end Double

end Records
