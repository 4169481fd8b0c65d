import Mathlib.Data.List.TakeWhile
import Records.Number.Shortest
import Records.Proofs.Number.Numeral

/-!
# What the text of a double begins with

The shortest decimal of a double other than zero has a digit other than zero, so some digit is left
when the zeros at its end are dropped, and the text begins with it or with a minus sign
(`exists_text_eq_cons`).
-/

set_option autoImplicit false

namespace Records.Double

/-- A double other than zero has a positive significand. -/
theorem significand_pos {d : Double} (h : d.rank ≠ 0) : 0 < d.significand := by
  rw [significand]
  split
  · omega
  · exact Nat.add_pos_left (Nat.two_pow_pos 52) _

/-- The numbers that round to a double other than zero are positive. -/
theorem roundingInterval_pos {d : Double} (h : d.rank ≠ 0) : 0 < d.roundingInterval.1 := by
  have hm := significand_pos h
  simp only [roundingInterval]
  split <;> omega

/-- The interval of a double lies above zero, so no zero hits it on any grid. -/
theorem digits_ne_zero_of_onGrid? {d : Double} (h : d.rank ≠ 0) {scale : Int} {decimal : Decimal}
    (hgrid : d.onGrid? scale = some decimal) : decimal.digits ≠ 0 := by
  have hlow := roundingInterval_pos h
  unfold onGrid? at hgrid
  rcases hinterval : d.roundingInterval with ⟨low, middle, high⟩
  rw [hinterval] at hgrid hlow
  extract_lets shift up down closed at hgrid
  dsimp -zeta only at hgrid
  extract_lets hits under after below above at hgrid
  have hup : 0 < up := Nat.mul_pos (Nat.two_pow_pos _) (Nat.pow_pos (by decide))
  -- the interval is above zero, so zero is never hit
  have hhits : ∀ c, hits c = true → c ≠ 0 := by
    rintro c hc rfl
    have hpos : 0 < low * up := Nat.mul_pos hlow hup
    simp only [hits, Nat.zero_mul] at hc
    split at hc <;> rw [decide_eq_true_eq] at hc <;> omega
  split at hgrid
  · cases hgrid
  · rename_i hunder _
    cases hgrid
    exact hhits _ hunder
  · rename_i _ hafter
    cases hgrid
    exact hhits _ hafter
  · rename_i hunder hafter
    split at hgrid <;> cases hgrid
    · exact hhits _ hunder
    · exact hhits _ hafter

/-- The digits found for a double other than zero are not all zero. -/
theorem digits_firstGrid_ne_zero {d : Double} (h : d.rank ≠ 0) (first : Int) (count tries : Nat) :
    (d.firstGrid first count tries).digits ≠ 0 := by
  induction tries generalizing count with
  | zero => exact Nat.ne_of_gt (Nat.mul_pos (significand_pos h) (Nat.two_pow_pos _))
  | succ tries ih =>
    rw [firstGrid]
    split
    · rename_i decimal hgrid
      exact digits_ne_zero_of_onGrid? h hgrid
    · exact ih _

/-- Zeros alone are read as zero. -/
theorem valueFrom_zeros {text : List Char} (h : ∀ c ∈ text, c = '0') :
    Numeral.valueFrom 0 text = some 0 := by
  induction text with
  | nil => rfl
  | cons c rest ih =>
    obtain ⟨rfl, hrest⟩ := List.forall_mem_cons.mp h
    exact ih hrest

/-- Some digits of a number other than zero are left when its final zeros are dropped. -/
theorem dropFinalZeros_ofNat_ne_nil {n : Nat} (h : n ≠ 0) :
    dropFinalZeros (Numeral.ofNat n) ≠ [] := by
  intro hnil
  rw [dropFinalZeros, List.reverse_eq_nil_iff, List.dropWhile_eq_nil_iff] at hnil
  have hzeros : ∀ c ∈ Numeral.ofNat n, c = '0' := fun c hc => by
    simpa using hnil c (List.mem_reverse.mpr hc)
  have hvalue := valueFrom_zeros hzeros
  rw [Numeral.valueFrom_ofNat] at hvalue
  exact h (Option.some.inj hvalue)

/-- Dropping final zeros adds no character. -/
theorem mem_of_mem_dropFinalZeros {digits : List Char} {c : Char} (h : c ∈ dropFinalZeros digits) :
    c ∈ digits := by
  rw [dropFinalZeros, List.mem_reverse] at h
  exact List.mem_reverse.mp ((List.dropWhile_suffix _).mem h)

/-- However digits are laid out, a digit stands first. -/
theorem exists_layoutText_eq_cons (l : Layout) {digits : List Char} (hne : digits ≠ [])
    (h : ∀ c ∈ digits, c.isDigit = true) (first : Int) :
    ∃ c rest, l.text digits first = c :: rest ∧ c.isDigit = true := by
  obtain ⟨d, others, rfl⟩ := List.exists_cons_of_ne_nil hne
  have hd := h d List.mem_cons_self
  rw [Layout.text]
  split
  · split
    · exact ⟨'0', _, rfl, rfl⟩
    · exact ⟨d, _, rfl, hd⟩
  · exact ⟨d, _, rfl, hd⟩

/-- The text of a double begins with a minus sign or a digit. -/
theorem exists_text_eq_cons (d : Double) :
    ∃ c rest, d.text = c :: rest ∧ (c = '-' ∨ c.isDigit = true) := by
  have hmagnitude : ∃ c rest, d.text = (if d.negative then ['-'] else []) ++ c :: rest ∧
      c.isDigit = true := by
    by_cases hrank : d.rank = 0
    · exact ⟨'0', ['.', '0'], by simp only [text, if_pos hrank], rfl⟩
    · obtain ⟨c, rest, hlayout, hc⟩ := exists_layoutText_eq_cons layout
        (dropFinalZeros_ofNat_ne_nil (digits_firstGrid_ne_zero hrank _ _ _))
        (fun c hc => Numeral.isDigit_of_mem_ofNat (mem_of_mem_dropFinalZeros hc)) _
      refine ⟨c, rest, ?_, hc⟩
      rw [← hlayout]
      simp only [text, if_neg hrank]
      rfl
  obtain ⟨c, rest, htext, hc⟩ := hmagnitude
  cases hsign : d.negative with
  | true => exact ⟨'-', c :: rest, by rw [htext, hsign]; rfl, .inl rfl⟩
  | false => exact ⟨c, rest, by rw [htext, hsign]; rfl, .inr hc⟩

end Records.Double
