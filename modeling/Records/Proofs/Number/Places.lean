import Mathlib.Data.List.Forall2
import Mathlib.Data.Nat.Digits.Defs
import Mathlib.Tactic.Ring
import Records.Proofs.Number.Numeral

/-!
# What numerals spell

Characters spell a number in positional notation when each stands for a digit of it, the most
significant first.  The reader of integers accepts exactly a sign or none followed by decimal
digits, and gives the integer that these spell (`signed?_eq_some_iff`).
-/

set_option autoImplicit false

namespace Records.Numeral

/-- The digits that characters stand for. -/
abbrev DigitsOf (digit? : Char → Option Nat) : List Char → List Nat → Prop :=
  List.Forall₂ fun c d => digit? c = some d

/-- Characters spell a number in a base, the most significant digit first. -/
def SpellsIn (base : Nat) (digit? : Char → Option Nat) (chars : List Char) (n : Nat) : Prop :=
  ∃ digits, DigitsOf digit? chars digits ∧ n = Nat.ofDigits base digits.reverse

/-- A text spells an integer: a sign or none, then at least one decimal digit. -/
inductive Spells : List Char → Int → Prop
  | unsigned {digits : List Char} {n : Nat} (filled : digits ≠ [])
      (h : SpellsIn 10 digit? digits n) : Spells digits n
  | plus {digits : List Char} {n : Nat} (filled : digits ≠ [])
      (h : SpellsIn 10 digit? digits n) : Spells ('+' :: digits) n
  | minus {digits : List Char} {n : Nat} (filled : digits ≠ [])
      (h : SpellsIn 10 digit? digits n) : Spells ('-' :: digits) (-n)

/-- A text is read as a number exactly when its characters are the digits that spell it behind those
read before. -/
theorem valueFrom_eq_some_iff {start n : Nat} {text : List Char} :
    valueFrom start text = some n ↔
      ∃ digits, DigitsOf digit? text digits ∧
        n = start * 10 ^ digits.length + Nat.ofDigits 10 digits.reverse := by
  induction text generalizing start with
  | nil => simp [valueFrom, List.forall₂_nil_left_iff, eq_comm]
  | cons c rest ih =>
    simp only [valueFrom, List.forall₂_cons_left_iff]
    cases hdigit : digit? c with
    | none => simp
    | some d =>
      have hplaces : ∀ digits : List Nat,
          (10 * start + d) * 10 ^ digits.length + Nat.ofDigits 10 digits.reverse =
            start * 10 ^ (d :: digits).length + Nat.ofDigits 10 (d :: digits).reverse := by
        intro digits
        rw [List.reverse_cons, Nat.ofDigits_append, Nat.ofDigits_singleton, List.length_reverse,
          List.length_cons]
        ring
      simp only [ih]
      constructor
      · rintro ⟨digits, hrest, rfl⟩
        exact ⟨d :: digits, ⟨d, digits, rfl, hrest, rfl⟩, hplaces digits⟩
      · rintro ⟨_, ⟨e, digits, hfirst, hrest, rfl⟩, rfl⟩
        cases hfirst
        exact ⟨digits, hrest, (hplaces digits).symm⟩

/-- A text is read as a natural number exactly when it spells it in base ten. -/
theorem nat?_eq_some_iff {text : List Char} {n : Nat} :
    nat? text = some n ↔ text ≠ [] ∧ SpellsIn 10 digit? text n := by
  cases text with
  | nil => simp [nat?]
  | cons c rest =>
    simp [nat?, valueFrom_eq_some_iff, SpellsIn]

/-- An integer that is made of the digits of a text is made of the number that they spell. -/
theorem exists_spellsIn_of_map {text : List Char} {sign : Nat → Int} {n : Int}
    (h : (nat? text).map sign = some n) :
    ∃ m, n = sign m ∧ text ≠ [] ∧ SpellsIn 10 digit? text m := by
  obtain ⟨m, hm, rfl⟩ := Option.map_eq_some_iff.mp h
  exact ⟨m, rfl, nat?_eq_some_iff.mp hm⟩

/-- Behind a minus the digits spell the negative number. -/
theorem signed?_minus (digits : List Char) :
    signed? ('-' :: digits) = (nat? digits).map fun n : Nat => -(n : Int) := by
  rw [signed?]
  cases nat? digits <;> rfl

/-- No sign is a digit. -/
theorem signed?_of_nat? {text : List Char} {n : Nat} (h : nat? text = some n) :
    signed? text = some (n : Int) := by
  rw [signed?.eq_def]
  split
  · cases h
  · cases h
  · rw [h]
    rfl

/-- An integer is read from a text exactly when the text spells it. -/
theorem signed?_eq_some_iff {text : List Char} {n : Int} :
    signed? text = some n ↔ Spells text n := by
  constructor
  · intro h
    rw [signed?.eq_def] at h
    split at h
    · obtain ⟨m, rfl, hfilled, hspells⟩ := exists_spellsIn_of_map h
      exact .plus hfilled hspells
    · rename_i digits
      change signed? ('-' :: digits) = some n at h
      rw [signed?_minus] at h
      obtain ⟨m, rfl, hfilled, hspells⟩ := exists_spellsIn_of_map h
      exact .minus hfilled hspells
    · obtain ⟨m, rfl, hfilled, hspells⟩ := exists_spellsIn_of_map h
      exact .unsigned hfilled hspells
  · intro h
    cases h with
    | unsigned filled h => exact signed?_of_nat? (nat?_eq_some_iff.mpr ⟨filled, h⟩)
    | plus filled h =>
      rw [signed?, nat?_eq_some_iff.mpr ⟨filled, h⟩]
      rfl
    | minus filled h =>
      rw [signed?_minus, nat?_eq_some_iff.mpr ⟨filled, h⟩]
      rfl

/-- A 64-bit integer is read from a text exactly when the text spells it. -/
theorem int64?_eq_some_iff {raw : String} {n : Int} :
    int64? raw = some n ↔ Spells raw.toList n ∧ isInt64 n = true := by
  rw [int64?, Option.filter_eq_some_iff, signed?_eq_some_iff]

end Records.Numeral
