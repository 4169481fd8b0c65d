import Records.Json.Value
import Records.Proofs.Text.Blank

/-!
# Numerals read back

The numeral of an integer is read as that integer, by every reader in whose range it lies, and no
blank stands at its ends.  So a number and the text of its numeral are the same to whoever accepts
both.
-/

set_option autoImplicit false

namespace Records.Numeral

/-- What is written for a number below ten is a digit. -/
theorem isDigit_digitChar (n : Nat) : (digitChar n).isDigit = true := by
  have hlt : n % 10 < 10 := Nat.mod_lt _ (by omega)
  have hall : ∀ k < 10, (Char.ofNat ('0'.toNat + k)).isDigit = true := by decide
  exact hall _ hlt

/-- A written digit is read as the last digit of its number. -/
theorem digit?_digitChar (n : Nat) : digit? (digitChar n) = some (n % 10) := by
  have hlt : n % 10 < 10 := Nat.mod_lt _ (by omega)
  have hall : ∀ k < 10, digit? (Char.ofNat ('0'.toNat + k)) = some k := by decide
  exact hall _ hlt

/-- A numeral is made of digits. -/
theorem isDigit_of_mem_ofNat {n : Nat} {c : Char} (h : c ∈ ofNat n) : c.isDigit = true := by
  induction n using ofNat.induct with
  | case1 n hn =>
    rw [ofNat, if_pos hn, List.mem_singleton] at h
    exact h ▸ isDigit_digitChar n
  | case2 n hn ih =>
    rw [ofNat, if_neg hn, List.mem_append, List.mem_singleton] at h
    rcases h with h | rfl
    · exact ih h
    · exact isDigit_digitChar n

/-- A numeral has at least one digit. -/
theorem ofNat_ne_nil (n : Nat) : ofNat n ≠ [] := by
  rw [ofNat]
  split <;> simp

/-- The digits of a number do not begin with a sign. -/
theorem exists_ofNat_eq_cons (n : Nat) : ∃ c rest, ofNat n = c :: rest ∧ c ≠ '+' ∧ c ≠ '-' := by
  obtain ⟨c, rest, h⟩ := List.exists_cons_of_ne_nil (ofNat_ne_nil n)
  have hdigit : c.isDigit = true := isDigit_of_mem_ofNat (h ▸ List.mem_cons_self)
  refine ⟨c, rest, h, ?_, ?_⟩
  · rintro rfl
    cases hdigit
  · rintro rfl
    cases hdigit

/-- Reading one more character adds its digit behind the value read so far. -/
theorem valueFrom_concat (start : Nat) (text : List Char) (c : Char) :
    valueFrom start (text ++ [c]) =
      (valueFrom start text).bind fun value => (digit? c).map (10 * value + ·) := by
  induction text generalizing start with
  | nil =>
    rw [List.nil_append, valueFrom, valueFrom]
    cases digit? c <;> rfl
  | cons first rest ih =>
    rw [List.cons_append, valueFrom, valueFrom]
    cases digit? first with
    | none => rfl
    | some d => exact ih _

/-- The digits of a number are read as that number. -/
theorem valueFrom_ofNat (n : Nat) : valueFrom 0 (ofNat n) = some n := by
  induction n using ofNat.induct with
  | case1 n hn =>
    rw [ofNat, if_pos hn, valueFrom, digit?_digitChar]
    simp [valueFrom, Nat.mod_eq_of_lt hn]
  | case2 n hn ih =>
    rw [ofNat, if_neg hn, valueFrom_concat, ih, digit?_digitChar]
    simp [Nat.div_add_mod]

/-- The numeral of a natural number is read back. -/
theorem nat?_ofNat (n : Nat) : nat? (ofNat n) = some n := by
  obtain ⟨c, rest, h, _, _⟩ := exists_ofNat_eq_cons n
  have hvalue := valueFrom_ofNat n
  rw [h] at hvalue ⊢
  exact hvalue

/-- The numeral of an integer is read back. -/
theorem signed?_ofInt (n : Int) : signed? (ofInt n) = some n := by
  rw [ofInt]
  split
  · rw [signed?, nat?_ofNat]
    show some (-(n.natAbs : Int)) = some n
    exact congrArg some (by omega)
  · obtain ⟨c, rest, h, hplus, hminus⟩ := exists_ofNat_eq_cons n.natAbs
    have hnat := nat?_ofNat n.natAbs
    rw [h] at hnat ⊢
    rw [signed?, hnat, Option.map_some]
    · exact congrArg some (Int.natAbs_of_nonneg (by omega))
    · simpa using hplus
    · simpa using hminus

/-- The numeral of an integer is read without a sign when the integer is not negative. -/
theorem unsigned?_ofInt (n : Int) : unsigned? (ofInt n) = if 0 ≤ n then some n.toNat else none := by
  rw [ofInt]
  split
  · rw [if_neg (by omega)]
    rfl
  · obtain ⟨c, rest, h, hplus, _⟩ := exists_ofNat_eq_cons n.natAbs
    have hnat := nat?_ofNat n.natAbs
    rw [h] at hnat ⊢
    rw [unsigned?, hnat, if_pos (by omega)]
    · exact congrArg some (by omega)
    · simpa using hplus

/-- The code points of the digits. -/
theorem code_of_isDigit {c : Char} (h : c.isDigit = true) : 48 ≤ c.toNat ∧ c.toNat ≤ 57 := by
  rw [Char.isDigit, Bool.and_eq_true, decide_eq_true_eq, decide_eq_true_eq] at h
  exact h

/-- No digit is blank. -/
theorem isBlank_of_isDigit {c : Char} (h : c.isDigit = true) : Text.isBlank c = false := by
  have hcode := code_of_isDigit h
  simp [Text.isBlank]
  omega

/-- The numeral of an integer is made of digits and a minus. -/
theorem eq_or_isDigit_of_mem_ofInt {n : Int} {c : Char} (h : c ∈ ofInt n) :
    c = '-' ∨ c.isDigit = true := by
  rw [ofInt] at h
  split at h
  · rcases List.mem_cons.mp h with rfl | h
    · exact .inl rfl
    · exact .inr (isDigit_of_mem_ofNat h)
  · exact .inr (isDigit_of_mem_ofNat h)

/-- The numeral of an integer is not empty. -/
theorem ofInt_ne_nil (n : Int) : ofInt n ≠ [] := by
  rw [ofInt]
  split
  · simp
  · exact ofNat_ne_nil _

/-- The numeral of an integer begins with a minus sign or a digit. -/
theorem exists_ofInt_eq_cons (n : Int) :
    ∃ c rest, ofInt n = c :: rest ∧ (c = '-' ∨ c.isDigit = true) := by
  obtain ⟨c, rest, h⟩ := List.exists_cons_of_ne_nil (ofInt_ne_nil n)
  exact ⟨c, rest, h, eq_or_isDigit_of_mem_ofInt (h ▸ List.mem_cons_self)⟩

/-- The numeral of an integer has no blank character. -/
theorem isBlank_of_mem_ofInt {n : Int} {c : Char} (h : c ∈ ofInt n) : Text.isBlank c = false := by
  rcases eq_or_isDigit_of_mem_ofInt h with rfl | hdigit
  · rfl
  · exact isBlank_of_isDigit hdigit

/-- The numeral of an integer, as a string. -/
def decimal (n : Int) : String := String.ofList (ofInt n)

/-- The text of an integer is not empty. -/
theorem isEmpty_decimal (n : Int) : (decimal n).isEmpty = false := by
  rw [← Bool.not_eq_true, String.isEmpty_iff, ← String.toList_eq_nil_iff, decimal,
    String.toList_ofList]
  exact ofInt_ne_nil n

/-- Trimming leaves the text of an integer as it is. -/
theorem trim_decimal (n : Int) : Text.trim (decimal n) = decimal n := by
  rw [Text.trim, decimal, String.toList_ofList,
    Text.trimChars_of_forall fun _ => isBlank_of_mem_ofInt]

/-- The bounds of signed 64-bit integers. -/
theorem isInt64_iff {n : Int} :
    isInt64 n = true ↔ -9223372036854775808 ≤ n ∧ n ≤ 9223372036854775807 := by
  rw [isInt64, Bool.and_eq_true, decide_eq_true_eq, decide_eq_true_eq]
  exact Iff.rfl

/-- The text of an integer is read as a 64-bit integer when the integer itself is one. -/
theorem int64?_decimal (n : Int) : int64? (decimal n) = (Json.int n).int64? := by
  rw [int64?, decimal, String.toList_ofList, signed?_ofInt]
  rfl

/-- The text of an integer is read as an unsigned 64-bit integer when the integer itself is one. -/
theorem nat64?_decimal (n : Int) : nat64? (decimal n) = (Json.int n).nat64? := by
  rw [nat64?, natUpTo?, decimal, String.toList_ofList, unsigned?_ofInt]
  by_cases hn : 0 ≤ n
  · have hbound : n.toNat ≤ greatestNat64 ↔ n ≤ greatestNat64 := by omega
    simp [Json.nat64?, hn, Option.filter, hbound]
  · simp [Json.nat64?, hn]

end Records.Numeral
