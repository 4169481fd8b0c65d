import Records.Proofs.Number.Numeral
import Mathlib.Algebra.Ring.Nat
import Mathlib.Data.List.Induction

/-!
# Numerals of a fixed width

A run of digits and the number that it writes determine each other once the number of places is
fixed: the padded numeral of a number is read as the number, and a run of digits is the padded
numeral of its value.  Numerals with as many places are in the order of their numbers.
-/

set_option autoImplicit false

namespace Records.Numeral

/-- A character that is read as a digit is what is written for it. -/
theorem eq_digitChar_of_digit? {c : Char} {d : Nat} (h : digit? c = some d) :
    c.isDigit = true ∧ c = digitChar d ∧ d < 10 := by
  rw [digit?] at h
  split at h
  · rename_i hdigit
    cases h
    obtain ⟨hlower, hupper⟩ := code_of_isDigit hdigit
    have hzero : '0'.toNat = 48 := rfl
    refine ⟨hdigit, ?_, by omega⟩
    rw [digitChar, Nat.mod_eq_of_lt (by omega), hzero, Nat.add_sub_cancel' hlower,
      Char.ofNat_toNat]
  · cases h

/-- The last character of what was read is a digit, and the value ends with it. -/
theorem valueFrom_concat_eq_some {start n : Nat} {text : List Char} {c : Char}
    (h : valueFrom start (text ++ [c]) = some n) :
    ∃ m d, valueFrom start text = some m ∧ digit? c = some d ∧ n = 10 * m + d := by
  rw [valueFrom_concat, Option.bind_eq_some_iff] at h
  obtain ⟨m, hm, h⟩ := h
  obtain ⟨d, hd, rfl⟩ := Option.map_eq_some_iff.mp h
  exact ⟨m, d, hm, hd, rfl⟩

/-- What is read as a natural number is not empty and is read digit by digit. -/
theorem valueFrom_of_nat? {digits : List Char} {n : Nat} (h : nat? digits = some n) :
    digits ≠ [] ∧ valueFrom 0 digits = some n := by
  cases digits with
  | nil => cases h
  | cons c rest => exact ⟨List.cons_ne_nil c rest, h⟩

/-- A number of so many digits is below that power of ten. -/
theorem lt_of_valueFrom {digits : List Char} {n : Nat} (h : valueFrom 0 digits = some n) :
    n < 10 ^ digits.length := by
  induction digits using List.reverseRecOn generalizing n with
  | nil =>
    cases h
    exact Nat.one_pos
  | append_singleton rest c ih =>
    obtain ⟨m, d, hm, hd, rfl⟩ := valueFrom_concat_eq_some h
    have hlt := ih hm
    have hdigit := (eq_digitChar_of_digit? hd).2.2
    rw [List.length_append, List.length_singleton, Nat.pow_succ]
    omega

/-! ## Padding -/

/-- The last digit of a padded numeral comes off at the end. -/
theorem padded_succ {width : Nat} (hwidth : 0 < width) (n : Nat) :
    padded (width + 1) n = padded width (n / 10) ++ [digitChar n] := by
  by_cases hn : n < 10
  · obtain ⟨places, rfl⟩ := Nat.exists_eq_add_of_lt hwidth
    have hzero : ofNat 0 = ['0'] := by
      rw [ofNat, if_pos (by omega)]
      rfl
    have hdigit : ofNat n = [digitChar n] := by rw [ofNat, if_pos hn]
    rw [padded, padded, Nat.div_eq_of_lt hn, hzero, hdigit]
    simp [List.replicate_succ']
  · have hdigits : ofNat n = ofNat (n / 10) ++ [digitChar n] := by rw [ofNat, if_neg hn]
    rw [padded, padded, hdigits]
    simp

/-- A number below ten is padded to its one digit. -/
theorem padded_one {n : Nat} (hn : n < 10) : padded 1 n = [digitChar n] := by
  rw [padded, ofNat, if_pos hn]
  rfl

/-- A padded numeral takes at least its places, and no more when the number fits. -/
theorem length_padded {width n : Nat} (hwidth : 0 < width) (hn : n < 10 ^ width) :
    (padded width n).length = width := by
  induction width generalizing n with
  | zero => cases hwidth
  | succ width ih =>
    rcases Nat.eq_zero_or_pos width with rfl | hwidth
    · rw [padded_one hn, List.length_singleton]
    · have hquotient : n / 10 < 10 ^ width := by
        rw [Nat.pow_succ] at hn
        omega
      rw [padded_succ hwidth, List.length_append, List.length_singleton, ih hwidth hquotient]

/-- A padded numeral has at least the width it is padded to. -/
theorem le_length_padded (width n : Nat) : width ≤ (padded width n).length := by
  rw [padded, List.length_append, List.length_replicate]
  omega

/-- A padded numeral is made of digits. -/
theorem isDigit_of_mem_padded {width n : Nat} {c : Char} (h : c ∈ padded width n) :
    c.isDigit = true := by
  rcases List.mem_append.mp h with h | h
  · rw [(List.mem_replicate.mp h).2]
    rfl
  · exact isDigit_of_mem_ofNat h

/-- A padded numeral is read as its number, the zeros in front included. -/
theorem valueFrom_padded (width n : Nat) : valueFrom 0 (padded width n) = some n := by
  have hzeros : ∀ places : Nat,
      valueFrom 0 (List.replicate places '0' ++ ofNat n) = some n := by
    intro places
    induction places with
    | zero => exact valueFrom_ofNat n
    | succ places ih => exact ih
  exact hzeros _

/-- A padded numeral is read as its number. -/
theorem nat?_padded (width n : Nat) : nat? (padded width n) = some n := by
  have hvalue := valueFrom_padded width n
  cases hdigits : padded width n with
  | nil => exact absurd hdigits (by simp [padded, ofNat_ne_nil])
  | cons c rest =>
    rw [hdigits] at hvalue
    exact hvalue

/-- A run of digits is the padded numeral of its value. -/
theorem padded_of_nat? {digits : List Char} {n : Nat} (h : nat? digits = some n) :
    padded digits.length n = digits := by
  obtain ⟨hne, hvalue⟩ := valueFrom_of_nat? h
  clear h
  induction digits using List.reverseRecOn generalizing n with
  | nil => exact absurd rfl hne
  | append_singleton rest c ih =>
    obtain ⟨m, d, hm, hd, rfl⟩ := valueFrom_concat_eq_some hvalue
    obtain ⟨-, hc, hlt⟩ := eq_digitChar_of_digit? hd
    have hlast : digitChar (10 * m + d) = c := by
      rw [hc, digitChar, digitChar, Nat.mul_add_mod]
    rw [List.length_append, List.length_singleton]
    by_cases hrest : rest = []
    · subst hrest
      cases hm
      rw [List.length_nil, padded_one (by omega), hlast]
      rfl
    · rw [padded_succ (List.length_pos_iff.mpr hrest), hlast,
        show (10 * m + d) / 10 = m by omega, ih hrest hm]

/-! ## Order -/

/-- The code points of digits follow each other from that of zero. -/
theorem toNat_digitChar (n : Nat) : (digitChar n).toNat = 48 + n % 10 := by
  have hlt : n % 10 < 10 := Nat.mod_lt _ (by omega)
  have hall : ∀ k < 10, (Char.ofNat ('0'.toNat + k)).toNat = 48 + k := by decide
  exact hall _ hlt

/-- Digits are in the order of their values. -/
theorem digitChar_lt_iff (n m : Nat) : digitChar n < digitChar m ↔ n % 10 < m % 10 := by
  show (digitChar n).toNat < (digitChar m).toNat ↔ _
  rw [toNat_digitChar, toNat_digitChar]
  omega

/-- Texts that begin with parts of one length are in the order of these parts, and where the parts
are the same in that of the rest. -/
theorem append_lt_append_iff {a b : List Char} (h : a.length = b.length) (c d : List Char) :
    a ++ c < b ++ d ↔ a < b ∨ a = b ∧ c < d := by
  induction a generalizing b with
  | nil => 
    obtain rfl := List.eq_nil_of_length_eq_zero h.symm
    simp
  | cons x a ih =>
    cases b with
    | nil => cases h
    | cons y b =>
      simp only [List.cons_append, List.cons_lt_cons_iff, ih (Nat.succ.inj h), List.cons.injEq]
      grind

/-- Numbers with the same padded numeral are the same. -/
theorem padded_inj {width n m : Nat} : padded width n = padded width m ↔ n = m := by
  constructor
  · intro h
    have hvalue := nat?_padded width n
    rw [h, nat?_padded] at hvalue
    exact (Option.some.inj hvalue).symm
  · rintro rfl
    rfl

/-- Numerals of one width are in the order of their numbers. -/
theorem padded_lt_iff {width n m : Nat} (hwidth : 0 < width) (hn : n < 10 ^ width)
    (hm : m < 10 ^ width) : padded width n < padded width m ↔ n < m := by
  have hdigit : ∀ {a b : Nat}, [digitChar a] < [digitChar b] ↔ a % 10 < b % 10 := by
    intro a b
    rw [List.cons_lt_cons_iff, digitChar_lt_iff, or_iff_left]
    exact fun h => List.not_lt_nil [] h.2
  induction width generalizing n m with
  | zero => cases hwidth
  | succ width ih =>
    rcases Nat.eq_zero_or_pos width with rfl | hwidth
    · rw [padded_one hn, padded_one hm, hdigit]
      omega
    · -- the numbers without their last digits decide, unless they are the same
      rw [Nat.pow_succ] at hn hm
      have hn : n / 10 < 10 ^ width := by omega
      have hm : m / 10 < 10 ^ width := by omega
      have hlength : (padded width (n / 10)).length = (padded width (m / 10)).length := by
        rw [length_padded hwidth hn, length_padded hwidth hm]
      have hrest : padded width (n / 10) < padded width (m / 10) ↔ n / 10 < m / 10 :=
        ih hwidth hn hm
      rw [padded_succ hwidth, padded_succ hwidth, append_lt_append_iff hlength, hrest, padded_inj,
        hdigit]
      omega

end Records.Numeral
