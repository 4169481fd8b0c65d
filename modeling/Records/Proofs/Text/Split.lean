import Records.Text.Split

/-!
# Where a text is cut

A text is cut at the first occurrence of a character, or at every one: the character does not occur
before the first cut, and a text without it is not cut at all.  A part occurs in a text when it is a
run of its characters.
-/

set_option autoImplicit false

namespace Records.Text

/-- A text is not cut exactly when the mark is not in it. -/
theorem cutFirst_eq_none_iff {mark : Char} {text : List Char} :
    cutFirst mark text = none ↔ mark ∉ text := by
  induction text with
  | nil => simp [cutFirst]
  | cons c rest ih =>
    rw [cutFirst]
    by_cases hc : c = mark
    · simp [hc]
    · simp [hc, ih, Ne.symm hc]

/-- A text is cut at the first mark in it. -/
theorem cutFirst_append {mark : Char} {before : List Char} (h : mark ∉ before)
    (after : List Char) : cutFirst mark (before ++ mark :: after) = some (before, after) := by
  induction before with
  | nil => simp [cutFirst]
  | cons c before ih =>
    simp only [List.mem_cons, not_or] at h
    simp [cutFirst, Ne.symm h.1, ih h.2]

/-- A text that is cut is what is before the mark, the mark and what is after it, and the mark is
not in what is before. -/
theorem eq_append_of_cutFirst {mark : Char} {text before after : List Char}
    (h : cutFirst mark text = some (before, after)) :
    text = before ++ mark :: after ∧ mark ∉ before := by
  induction text generalizing before with
  | nil => cases h
  | cons c rest ih =>
    rw [cutFirst] at h
    split at h
    · rename_i hc
      cases h
      exact ⟨by rw [hc]; rfl, by simp⟩
    · rename_i hc
      obtain ⟨⟨others, left⟩, hrest, h⟩ := Option.map_eq_some_iff.mp h
      cases h
      obtain ⟨rfl, hothers⟩ := ih hrest
      exact ⟨rfl, by simp [Ne.symm hc, hothers]⟩

/-- Splitting at a mark is the library's splitting of lists. -/
theorem splitAt_eq_splitOn (mark : Char) (text : List Char) :
    splitAt mark text = text.splitOn mark := by
  induction text with
  | nil => rfl
  | cons c rest ih =>
    rw [splitAt, List.splitOn_cons_eq_if_modifyHead, ih]
    cases hparts : rest.splitOn mark with
    | nil => exact absurd hparts (List.splitOn_ne_nil mark rest)
    | cons part parts => simp

/-- Joining with a mark is the library's joining of lists. -/
theorem joinWith_eq_intercalate (mark : Char) (parts : List (List Char)) :
    joinWith mark parts = [mark].intercalate parts := by
  induction parts with
  | nil => rfl
  | cons part rest ih =>
    cases rest with
    | nil => rw [joinWith, List.intercalate_singleton]
    | cons next others =>
      rw [joinWith, ih, List.intercalate_cons_cons, List.append_assoc, List.singleton_append]
      exact List.cons_ne_nil next others

/-- Splitting a text gives at least one part. -/
theorem splitAt_ne_nil (mark : Char) (text : List Char) : splitAt mark text ≠ [] := by
  rw [splitAt_eq_splitOn]
  exact List.splitOn_ne_nil mark text

/-- A text without the mark is one part. -/
theorem splitAt_of_not_mem {mark : Char} {text : List Char} (h : mark ∉ text) :
    splitAt mark text = [text] := by
  rw [splitAt_eq_splitOn, List.splitOn_eq_singleton h]

/-- The first part of a text ends at its first mark. -/
theorem splitAt_append {mark : Char} {before : List Char} (h : mark ∉ before)
    (after : List Char) :
    splitAt mark (before ++ mark :: after) = before :: splitAt mark after := by
  rw [splitAt_eq_splitOn, splitAt_eq_splitOn, List.splitOn_append_cons_self_of_not_mem h]

/-- The parts of a text with the character between them make up the text. -/
theorem joinWith_splitAt (mark : Char) (text : List Char) :
    joinWith mark (splitAt mark text) = text := by
  rw [splitAt_eq_splitOn, joinWith_eq_intercalate, List.intercalate_splitOn]

/-- Parts without the character are what is cut where it stands between them. -/
theorem splitAt_joinWith {mark : Char} {parts : List (List Char)} (hfilled : parts ≠ [])
    (h : ∀ part ∈ parts, mark ∉ part) : splitAt mark (joinWith mark parts) = parts := by
  rw [splitAt_eq_splitOn, joinWith_eq_intercalate, List.splitOn_intercalate mark h hfilled]

/-- No part of a text holds the character at which it is cut. -/
theorem not_mem_of_mem_splitAt {mark : Char} {text part : List Char}
    (h : part ∈ splitAt mark text) : mark ∉ part := by
  induction text generalizing part with
  | nil =>
    rw [List.mem_singleton.mp h]
    exact List.not_mem_nil
  | cons c rest ih =>
    rw [splitAt] at h
    split at h
    · rcases List.mem_cons.mp h with rfl | h
      · exact List.not_mem_nil
      · exact ih h
    · rename_i hc
      cases hparts : splitAt mark rest with
      | nil => exact absurd hparts (splitAt_ne_nil mark rest)
      | cons first parts =>
        rw [hparts] at h ih
        rcases List.mem_cons.mp h with rfl | h
        · exact List.not_mem_cons_of_ne_of_not_mem (Ne.symm hc) (ih List.mem_cons_self)
        · exact ih (List.mem_cons_of_mem _ h)

/-- Searching a text finds exactly the runs of its characters. -/
theorem occursIn_iff_isInfix (part text : List Char) :
    occursIn part text = true ↔ part <:+: text := by
  induction text with
  | nil => simp [occursIn]
  | cons c rest ih =>
    rw [occursIn, Bool.or_eq_true, List.isPrefixOf_iff_prefix, ih, List.infix_cons_iff]

end Records.Text
