/-!
# Hexadecimal digits

Digits are read in either case, from the code of a character or a byte, and written in lower case.
Reading a written digit gives its number back.
-/

set_option autoImplicit false

namespace Records.Text

/-- The number that a digit stands for, given by its code. -/
def hexValue? (code : Nat) : Option Nat :=
  if 48 ≤ code ∧ code ≤ 57 then some (code - 48)
  else if 65 ≤ code ∧ code ≤ 70 then some (code - 55)
  else if 97 ≤ code ∧ code ≤ 102 then some (code - 87)
  else none

/-- The lower-case digit of a number below sixteen. -/
def hexDigit (n : Nat) : Char :=
  if n < 10 then Char.ofNat (48 + n) else Char.ofNat (87 + n)

/-- Every number below sixteen is read back from its digit. -/
theorem hexValue?_hexDigit {n : Nat} (h : n < 16) : hexValue? (hexDigit n).toNat = some n := by
  have table : ∀ n < 16, hexValue? (hexDigit n).toNat = some n := by decide
  exact table n h

/-- A hexadecimal digit is below 16. -/
theorem hexValue?_lt {code n : Nat} (h : hexValue? code = some n) : n < 16 := by
  simp only [hexValue?] at h
  grind

end Records.Text
