import Records.Number.Double
import Records.Number.Numeral

/-!
# The shortest decimal text of a double

The reals that round to a double form an interval around it, closed exactly when its significand is
even.  Its shortest decimal is found grid by grid: for one digit, two digits, and so on up to
seventeen, the two neighbours of the value on the decimal grid with that many digits are tested
against the interval, and the first grid with a hit wins.  Of two hits the nearer is taken, a tie
going to the even last digit.

How the digits are then laid out is a matter of `Layout`.
-/

set_option autoImplicit false

namespace Records

namespace Double

/-- A positive decimal: `digits * 10 ^ scale`. -/
structure Decimal where
  /-- The digits, read as one natural number. -/
  digits : Nat
  /-- The power of ten of the last digit. -/
  scale : Int
deriving DecidableEq, Repr

/-- The interval of magnitudes that round to a double, in quarters of its unit in the last place:
`(low, middle, high)` stand for these multiples of `2 ^ (exponent - 2)`.  Below a power of two the
spacing halves. -/
def roundingInterval (d : Double) : Nat × Nat × Nat :=
  let m := d.significand
  let low := if m = Nat.pow 2 52 ∧ Nat.pow 2 52 < d.rank then 4 * m - 1 else 4 * m - 2
  (low, 4 * m, 4 * m + 2)

/-- The decimal exponent of the first digit of a positive magnitude.  Every positive double is above
`10 ^ -330`, so the shifted magnitude has a whole part. -/
def decimalExponent (d : Double) : Int :=
  ((Numeral.ofNat (d.numerator * Nat.pow 10 330 / d.denominator)).length : Int) - 331

/-- The shortest decimal on the grid of multiples of `10 ^ scale` that rounds to the magnitude, if
this grid has one. -/
def onGrid? (d : Double) (scale : Int) : Option Decimal :=
  let (low, middle, high) := d.roundingInterval
  let shift : Int := d.exponent - 2
  let up := Nat.pow 2 shift.toNat * Nat.pow 10 (-scale).toNat
  let down := Nat.pow 10 scale.toNat * Nat.pow 2 (-shift).toNat
  let closed : Bool := d.significand % 2 = 0
  let hits (c : Nat) : Bool :=
    if closed then decide (low * up ≤ c * down ∧ c * down ≤ high * up)
    else decide (low * up < c * down ∧ c * down < high * up)
  let under := middle * up / down
  let after := under + 1
  let below := middle * up - under * down
  let above := after * down - middle * up
  match hits under, hits after with
  | false, false => none
  | true, false => some ⟨under, scale⟩
  | false, true => some ⟨after, scale⟩
  | true, true =>
    if below < above ∨ (below = above ∧ under % 2 = 0) then some ⟨under, scale⟩
    else some ⟨after, scale⟩

/-- The first grid with a hit among those that have `count`, `count + 1`, … digits. -/
def firstGrid (d : Double) (first : Int) : Nat → Nat → Decimal
  | _, 0 => ⟨d.numerator, 0⟩
  | count, tries + 1 =>
    match d.onGrid? (first - count + 1) with
    | some decimal => decimal
    | none => firstGrid d first (count + 1) tries

/-- The decimal with the fewest digits that reads back as the magnitude of a double. -/
def shortest (d : Double) : Decimal := firstGrid d d.decimalExponent 1 17

/-- Drops the zeros at the end of a run of digits. -/
def dropFinalZeros (digits : List Char) : List Char :=
  (digits.reverse.dropWhile (· = '0')).reverse

/-- How the digits of a number are laid out. -/
structure Layout where
  /-- The least exponent of a first digit that is written without an exponent. -/
  plainFrom : Int
  /-- The least exponent past those that are written without an exponent. -/
  plainBelow : Int
  /-- Whether a positive exponent carries a plus sign. -/
  plusSign : Bool

/-- Numbers are written plainly from `0.00001` to below `10 ^ 16`, always with a digit after the
point, and otherwise with a signed exponent. -/
def layout : Layout := ⟨-5, 16, true⟩

/-- The text of significant digits whose first one has the decimal exponent `first`. -/
def Layout.text (l : Layout) (digits : List Char) (first : Int) : List Char :=
  if l.plainFrom ≤ first ∧ first < l.plainBelow then
    if first < 0 then
      '0' :: '.' :: (List.replicate (-first - 1).toNat '0' ++ digits)
    else
      let places := first.toNat + 1
      let whole := digits.take places ++ List.replicate (places - digits.length) '0'
      let fraction := digits.drop places
      whole ++ '.' :: (if fraction.isEmpty then ['0'] else fraction)
  else
    let sign := if l.plusSign ∧ 0 < first then ['+'] else []
    let point := if (digits.drop 1).isEmpty then [] else '.' :: digits.drop 1
    digits.take 1 ++ point ++ 'e' :: (sign ++ Numeral.ofInt first)

/-- The text of a double. -/
def text (d : Double) : List Char :=
  let sign := if d.negative then ['-'] else []
  if d.rank = 0 then sign ++ ['0', '.', '0']
  else
    let decimal := d.shortest
    let all := Numeral.ofNat decimal.digits
    let first := decimal.scale + (all.length : Int) - 1
    sign ++ layout.text (dropFinalZeros all) first

end Double

end Records
