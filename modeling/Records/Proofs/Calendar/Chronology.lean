import Records.Proofs.Calendar.Layouts
import Records.Store.Evaluate

/-!
# The order of days

Normal forms have their numbers in the same places, the year first, so they are as texts in the
order of the days (`admits_lower`, `admits_upper`).  The normal form takes one byte for each of its
characters, so a text that begins with it has it for its day (`dayOf_of_prefix`).
-/

set_option autoImplicit false

namespace Records.Date

/-- A day comes before another. -/
def IsBefore (a b : Date) : Prop :=
  a.year < b.year ∨ a.year = b.year ∧ (a.month < b.month ∨ a.month = b.month ∧ a.day < b.day)

instance (a b : Date) : Decidable (a.IsBefore b) := inferInstanceAs (Decidable (_ ∨ _))

section

variable {a b : Date}

/-- A date is before or the same as another exactly when the other is not before it. -/
theorem isBefore_or_eq_iff : a.IsBefore b ∨ a = b ↔ ¬ b.IsBefore a := by
  obtain ⟨ya, ma, da⟩ := a
  obtain ⟨yb, mb, db⟩ := b
  simp only [IsBefore, Date.mk.injEq]
  omega

/-- Numbers of one width with a mark after them are compared before what comes after the mark. -/
theorem padded_cons_lt_iff {width n m : Nat} (hwidth : 0 < width) (hn : n < 10 ^ width)
    (hm : m < 10 ^ width) (c : Char) (x y : List Char) :
    Numeral.padded width n ++ c :: x < Numeral.padded width m ++ c :: y ↔
      n < m ∨ n = m ∧ x < y := by
  have hlength : (Numeral.padded width n).length = (Numeral.padded width m).length := by
    rw [Numeral.length_padded hwidth hn, Numeral.length_padded hwidth hm]
  have hmark : c :: x < c :: y ↔ x < y := by
    rw [List.cons_lt_cons_iff, or_iff_right (Std.lt_irrefl (a := c)), and_iff_right rfl]
  rw [Numeral.append_lt_append_iff hlength, Numeral.padded_lt_iff hwidth hn hm, Numeral.padded_inj,
    hmark]

/-- The texts of dates that fit in ten characters are in the order of the dates. -/
theorem text_lt_iff (ha : a.Fits) (hb : b.Fits) : a.text < b.text ↔ a.IsBefore b := by
  rw [← write_normal ha.year, ← write_normal hb.year]
  obtain ⟨ya, ma, da, rfl, hya, hma, hda⟩ := ha.exists_eq
  obtain ⟨yb, mb, db, rfl, hyb, hmb, hdb⟩ := hb.exists_eq
  show Layout.write ⟨true, false⟩ _ < Layout.write ⟨true, false⟩ _ ↔ _
  rw [write_yearFirst, write_yearFirst, padded_cons_lt_iff (by omega) (by omega) (by omega),
    padded_cons_lt_iff (by omega) (by omega) (by omega),
    Numeral.padded_lt_iff (by omega) (by omega) (by omega)]
  show _ ↔ ((ya : Int) < yb ∨ (ya : Int) = yb ∧ (ma < mb ∨ ma = mb ∧ da < db))
  omega

/-- Normal forms of dates are the same only for the same date. -/
theorem text_inj (ha : a.Fits) (hb : b.Fits) : a.text = b.text ↔ a = b := by
  constructor
  · intro h
    have htext := readNormal?_of_fits ha
    rw [h, readNormal?_of_fits hb] at htext
    exact (Option.some.inj htext).symm
  · rintro rfl
    rfl

/-- As texts, normal forms are in the order of the days. -/
theorem isLE_compare_text (ha : a.Fits) (hb : b.Fits) :
    (compare (String.ofList a.text) (String.ofList b.text)).isLE = decide (¬ b.IsBefore a) := by
  have hlt : String.ofList a.text < String.ofList b.text ↔ a.IsBefore b := by
    rw [String.lt_iff, String.toList_ofList, String.toList_ofList, text_lt_iff ha hb]
  have heq : String.ofList a.text = String.ofList b.text ↔ a = b := by
    rw [String.ofList_inj, text_inj ha hb]
  show (compareOfLessAndEq _ _).isLE = _
  have hbefore : decide (¬ b.IsBefore a) = decide (a.IsBefore b ∨ a = b) :=
    decide_eq_decide.mpr isBefore_or_eq_iff.symm
  rw [hbefore]
  simp only [compareOfLessAndEq, hlt, heq]
  split
  · simp [*]
  · split <;> simp [*]

/-! ## The day of a text -/

/-- The first bytes of a text that begins with one-byte characters are those characters. -/
theorem firstBytes?_append {chars : List Char} (h : ∀ c ∈ chars, c.utf8Size = 1)
    (rest : List Char) : firstBytes? chars.length (chars ++ rest) = some chars := by
  induction chars with
  | nil => rw [List.length_nil, firstBytes?]
  | cons c chars ih =>
    obtain ⟨hc, hchars⟩ := List.forall_mem_cons.mp h
    rw [List.cons_append, List.length_cons, firstBytes?, hc, if_pos (by omega), Nat.add_sub_cancel,
      ih hchars]
    rfl

/-- The characters of a date that fits take one byte each. -/
theorem utf8Size_of_mem_text (ha : a.Fits) {c : Char} (h : c ∈ a.text) : c.utf8Size = 1 := by
  rw [← write_normal ha.year] at h
  rcases isDigit_or_eq_mark h with hdigit | rfl
  · have hcode := (Numeral.code_of_isDigit hdigit).2
    rw [Char.utf8Size_eq_one_iff]
    show c.toNat ≤ 127
    omega
  · rfl

/-- The day of a text that begins with the normal form of a date. -/
theorem dayOf_of_prefix (ha : a.Fits) {text : String} (h : a.text <+: text.toList) :
    dayOf text = String.ofList a.text := by
  obtain ⟨rest, hrest⟩ := h
  have hlength : a.text.length = 10 := by
    obtain ⟨_, _, _, _, _, _, _, _, htext, _⟩ := readNormal?_eq_some (readNormal?_of_fits ha)
    rw [htext]
    rfl
  have hbytes := firstBytes?_append (fun _ => utf8Size_of_mem_text ha) rest
  rw [hlength, hrest] at hbytes
  rw [dayOf, hbytes]

/-- A day is within a lower bound unless it comes before it. -/
theorem admits_lower (ha : a.Fits) (hb : b.Fits) :
    DateBound.lower.admits (String.ofList a.text) (String.ofList b.text) =
      decide (¬ b.IsBefore a) :=
  isLE_compare_text ha hb

/-- A day is within an upper bound unless it comes after it. -/
theorem admits_upper (ha : a.Fits) (hb : b.Fits) :
    DateBound.upper.admits (String.ofList a.text) (String.ofList b.text) =
      decide (¬ a.IsBefore b) :=
  isLE_compare_text hb ha

end

end Records.Date
