import Records.Text.Blank

/-!
# Trimming

Trimming leaves a text without blanks, and what a trimmed text begins with is known from the text
itself.
-/

set_option autoImplicit false

namespace Records.Text

/-- Trimming the front leaves an end of the text. -/
theorem trimFront_suffix (text : List Char) : trimFront text <:+ text :=
  List.dropWhile_suffix _

/-- Trimming leaves a run of the characters of a text. -/
theorem trimChars_infix (text : List Char) : trimChars text <:+: text := by
  have hback : trimBack (trimFront text) <+: trimFront text := by
    rw [← List.reverse_suffix, trimBack, List.reverse_reverse]
    exact List.dropWhile_suffix _
  exact hback.isInfix.trans (trimFront_suffix text).isInfix

/-- A text without blanks has nothing to trim in front. -/
theorem trimFront_of_forall {text : List Char} (h : ∀ c ∈ text, isBlank c = false) :
    trimFront text = text := by
  cases text with
  | nil => rfl
  | cons c rest =>
    rw [trimFront, List.dropWhile_cons, h c List.mem_cons_self]
    rfl

/-- A text without blanks has nothing to trim. -/
theorem trimChars_of_forall {text : List Char} (h : ∀ c ∈ text, isBlank c = false) :
    trimChars text = text := by
  have hback : trimFront text.reverse = text.reverse :=
    trimFront_of_forall fun c hc => h c (List.mem_reverse.mp hc)
  rw [trimChars, trimFront_of_forall h, trimBack, ← trimFront, hback, List.reverse_reverse]

/-- Trimming leaves what stands between blanks. -/
theorem trimChars_append {front text back : List Char} (hfront : ∀ c ∈ front, isBlank c = true)
    (hback : ∀ c ∈ back, isBlank c = true) (htext : ∀ c ∈ text, isBlank c = false) :
    trimChars (front ++ (text ++ back)) = text := by
  rw [trimChars, trimFront, List.dropWhile_append_of_pos hfront]
  cases text with
  | nil =>
    rw [List.nil_append, ← List.append_nil back, List.dropWhile_append_of_pos hback]
    rfl
  | cons c rest =>
    have hreverse : trimFront (c :: rest).reverse = (c :: rest).reverse :=
      trimFront_of_forall fun c hc => htext c (List.mem_reverse.mp hc)
    rw [List.cons_append, List.dropWhile_cons_of_neg (by simp [htext c List.mem_cons_self]),
      ← List.cons_append, trimBack, List.reverse_append,
      List.dropWhile_append_of_pos (by simpa using hback), ← trimFront, hreverse,
      List.reverse_reverse]

/-- Trimming the back stops before a character that is not blank. -/
theorem trimBack_cons {c : Char} (hc : isBlank c = false) (rest : List Char) :
    trimBack (c :: rest) = c :: trimBack rest := by
  rw [trimBack, trimBack, List.reverse_cons, List.dropWhile_append]
  split
  · rename_i hempty
    rw [List.isEmpty_iff.mp hempty]
    simp [hc]
  · rw [List.reverse_append]
    rfl

/-- What a text begins with once the blanks in front are gone, it begins with when it is trimmed. -/
theorem head?_trimChars (text : List Char) :
    (trimChars text).head? = (trimFront text).head? := by
  rw [trimChars]
  cases htext : trimFront text with
  | nil => rfl
  | cons c rest =>
    have hc : isBlank c = false := by
      have hhead := List.head?_dropWhile_not isBlank text
      rw [← trimFront, htext] at hhead
      exact hhead
    rw [trimBack_cons hc]
    rfl

end Records.Text
