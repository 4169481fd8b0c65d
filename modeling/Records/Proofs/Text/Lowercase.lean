import Records.Proofs.Text.Split
import Records.Text.Lowercase

/-!
# The lower case of a text in its place

A text that stands inside another one has a lower case there, which is a part of the lower case of
the whole.  It differs from the lower case of the text alone at most in its capital sigmas: where a
word ends in one of the two and not in the other.
-/

set_option autoImplicit false

namespace Records.Text

/-- Whether a word ends between two texts: a cased letter comes before and none comes after,
case-ignorable characters skipped. -/
def wordEnds (before after : List Char) : Bool := startsCased before.reverse && !startsCased after

/-- The lower case of a text between two others. -/
def lowerWithin (before : List Char) : List Char → List Char → List Char
  | [], _ => []
  | c :: rest, after =>
    (if c = capitalSigma then [lowerSigma before.reverse (rest ++ after)] else lowerChar c)
      ++ lowerWithin (before ++ [c]) rest after

/-- Whether every capital sigma of a text that stands between two others ends a word there if and
only if it does in the text alone. -/
def KeepsSigmas (before text after : List Char) : Prop :=
  ∀ front back, text = front ++ capitalSigma :: back →
    wordEnds (before ++ front) (back ++ after) = wordEnds front back

/-- A sigma is lowered alike in two places exactly when a word ends in both or in neither. -/
theorem lowerSigma_eq_iff {before after before' after' : List Char} :
    lowerSigma before.reverse after = lowerSigma before'.reverse after' ↔
      wordEnds before after = wordEnds before' after' := by
  have hfinal : Char.ofNat 0x3C2 ≠ Char.ofNat 0x3C3 := by decide
  rw [lowerSigma, lowerSigma, wordEnds, wordEnds]
  cases startsCased before.reverse && !startsCased after <;>
    cases startsCased before'.reverse && !startsCased after' <;> simp [hfinal, hfinal.symm]

/-- Lowering a text from some place on is lowering it between what is before it and nothing. -/
theorem lowerAfter_eq_lowerWithin (before text : List Char) :
    lowerAfter before.reverse text = lowerWithin before text [] := by
  induction text generalizing before with
  | nil => rfl
  | cons c rest ih =>
    have htail := ih (before ++ [c])
    rw [List.reverse_append] at htail
    rw [lowerAfter, lowerWithin, List.append_nil, ← htail]
    rfl

/-- Lowering a text is lowering it between nothing and nothing. -/
theorem lowerChars_eq_lowerWithin (text : List Char) :
    lowerChars text = lowerWithin [] text [] :=
  lowerAfter_eq_lowerWithin [] text

/-- Two pieces of a text are lowered each between what is around it. -/
theorem lowerWithin_append (before text text' after : List Char) :
    lowerWithin before (text ++ text') after =
      lowerWithin before text (text' ++ after) ++ lowerWithin (before ++ text) text' after := by
  induction text generalizing before with
  | nil => simp [lowerWithin]
  | cons c rest ih => simp [lowerWithin, ih, List.append_assoc]

/-- How long a lower case is does not depend on what stands around. -/
theorem length_lowerWithin (before text after : List Char) :
    (lowerWithin before text after).length = (lowerChars text).length := by
  have hlength : ∀ before' after', (lowerWithin before text after).length =
      (lowerWithin before' text after').length := by
    induction text generalizing before with
    | nil => exact fun _ _ => rfl
    | cons c rest ih =>
      intro before' after'
      rw [lowerWithin, lowerWithin, List.length_append, List.length_append,
        ih (before ++ [c]) (before' ++ [c]) after']
      split <;> rfl
  rw [lowerChars_eq_lowerWithin]
  exact hlength [] []

/-- A capital sigma of a text is its first character or one of the rest. -/
theorem forall_sigma_cons {p : List Char → List Char → Prop} {c : Char} {rest : List Char} :
    (∀ front back, c :: rest = front ++ capitalSigma :: back → p front back) ↔
      (c = capitalSigma → p [] rest) ∧
        ∀ front back, rest = front ++ capitalSigma :: back → p (c :: front) back := by
  constructor
  · intro h
    refine ⟨fun hc => h [] rest (by rw [hc]; rfl), fun front back hback => ?_⟩
    exact h (c :: front) back (by rw [hback]; rfl)
  · rintro ⟨hfirst, hothers⟩ front back h
    cases front with
    | nil =>
      obtain ⟨hc, rfl⟩ := List.cons_eq_cons.mp h
      exact hfirst hc
    | cons c' front =>
      obtain ⟨rfl, hback⟩ := List.cons_eq_cons.mp h
      exact hothers front back hback

/-- Two lower cases of a text are equal when its capital sigmas end words alike. -/
theorem lowerWithin_eq_iff (before before' text after after' : List Char) :
    lowerWithin before text after = lowerWithin before' text after' ↔
      ∀ front back, text = front ++ capitalSigma :: back →
        wordEnds (before ++ front) (back ++ after) =
          wordEnds (before' ++ front) (back ++ after') := by
  induction text generalizing before before' with
  | nil => simp [lowerWithin]
  | cons c rest ih =>
    have hrest := ih (before ++ [c]) (before' ++ [c])
    simp only [List.append_assoc, List.singleton_append] at hrest
    rw [forall_sigma_cons, ← hrest, List.append_nil, List.append_nil, lowerWithin, lowerWithin]
    by_cases hc : c = capitalSigma
    · rw [if_pos hc, if_pos hc, List.singleton_append, List.singleton_append, List.cons_eq_cons,
        lowerSigma_eq_iff]
      simp [hc]
    · rw [if_neg hc, if_neg hc, List.append_cancel_left_eq]
      simp [hc]

/-- A text without capital sigmas keeps them wherever it stands. -/
theorem keepsSigmas_of_not_mem {text : List Char} (h : capitalSigma ∉ text)
    (before after : List Char) : KeepsSigmas before text after := by
  rintro front back rfl
  simp at h

/-- The lower case of a text is that of its parts in their places. -/
theorem lowerChars_append (before text after : List Char) :
    lowerChars (before ++ text ++ after) =
      lowerWithin [] before (text ++ after) ++
        (lowerWithin before text after ++ lowerWithin (before ++ text) after []) := by
  rw [lowerChars_eq_lowerWithin, lowerWithin_append, lowerWithin_append]
  simp

/-- In the lower case of a text, the lower case of a part stands at the place of that part exactly
when the sigmas of the part end words there as they do in the part alone. -/
theorem lowerChars_at_place_iff (before text after : List Char) :
    ((lowerChars (before ++ text ++ after)).drop (lowerChars before).length).take
        (lowerChars text).length = lowerChars text ↔ KeepsSigmas before text after := by
  rw [lowerChars_append, ← length_lowerWithin [] before (text ++ after), List.drop_left,
    ← length_lowerWithin before text after, List.take_left, lowerChars_eq_lowerWithin text,
    lowerWithin_eq_iff]
  simp only [List.nil_append, List.append_nil]
  rfl

/-- A text that keeps its sigmas where it stands is found there when both are lowered. -/
theorem occursIn_of_keepsSigmas {before text after : List Char}
    (h : KeepsSigmas before text after) :
    occursIn (lowerChars text) (lowerChars (before ++ text ++ after)) = true := by
  rw [occursIn_iff_isInfix, ← (lowerChars_at_place_iff before text after).mpr h]
  exact (List.take_prefix _ _).isInfix.trans (List.drop_suffix _ _).isInfix

end Records.Text
