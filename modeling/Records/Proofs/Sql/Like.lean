import Records.Sql.Condition
import Mathlib.Data.List.Infix

/-!
# Patterns match literally

The matching of `LIKE` on characters: `%` stands for any text, `_` for any one character, a
backslash makes the next character literal, and any other character is literal.  `ILIKE` compares
literal characters up to their case, here up to any folding of characters.

The pattern for a term is read as the characters of the term, all of them literal, between two `%`,
so it matches the texts in which the term occurs (`containsPattern_matches`).
-/

set_option autoImplicit false

namespace Records.Sql

/-- A part of a pattern. -/
inductive PatternPart where
  | anyText
  | anyChar
  | literal (c : Char)
deriving DecidableEq, Repr

namespace PatternPart

/-- The parts of a pattern; none when it ends in a backslash that escapes nothing. -/
def ofPattern? : List Char → Option (List PatternPart)
  | [] => some []
  | ['\\'] => none
  | '\\' :: c :: rest => (ofPattern? rest).map (.literal c :: ·)
  | '%' :: rest => (ofPattern? rest).map (.anyText :: ·)
  | '_' :: rest => (ofPattern? rest).map (.anyChar :: ·)
  | c :: rest => (ofPattern? rest).map (.literal c :: ·)

/-- Whether a text consists of pieces that the parts stand for, in their order.  Any tail of the
text may be what `anyText` leaves to the parts after it. -/
def matchAll (fold : Char → Char) : List PatternPart → List Char → Bool
  | [], text => text.isEmpty
  | .anyText :: parts, text => text.tails.any (matchAll fold parts)
  | .anyChar :: _, [] => false
  | .anyChar :: parts, _ :: rest => matchAll fold parts rest
  | .literal _ :: _, [] => false
  | .literal c :: parts, c' :: rest => fold c = fold c' && matchAll fold parts rest

/-- An escaped character of the term is read as that character. -/
theorem ofPattern?_escape (c : Char) (rest : List Char) :
    ofPattern? (containsPattern.escape c ++ rest) = (ofPattern? rest).map (.literal c :: ·) := by
  rw [containsPattern.escape]
  split
  · rfl
  · rename_i hplain
    simp only [Bool.or_eq_true, decide_eq_true_eq, not_or] at hplain
    obtain ⟨⟨hpercent, hunderscore⟩, hbackslash⟩ := hplain
    rw [List.singleton_append, ofPattern?]
    · exact fun h => absurd h hbackslash
    · exact fun _ _ h => absurd h hbackslash
    · exact hpercent
    · exact hunderscore

/-- The characters of a term, each of them literal, before an open end. -/
theorem ofPattern?_escaped (term : List Char) :
    ofPattern? (term.flatMap containsPattern.escape ++ ['%']) =
      some (term.map .literal ++ [.anyText]) := by
  induction term with
  | nil => rfl
  | cons c rest ih =>
    rw [List.flatMap_cons, List.append_assoc, ofPattern?_escape, ih]
    rfl

/-- The pattern for any text matches every text. -/
theorem matchAll_anyText (fold : Char → Char) (text : List Char) :
    matchAll fold [.anyText] text = true := by
  rw [matchAll, List.any_eq_true]
  exact ⟨[], (List.mem_tails _ _).mpr List.nil_suffix, rfl⟩

/-- Literal characters before an open end match the texts that begin with them. -/
theorem matchAll_literals (fold : Char → Char) (term text : List Char) :
    matchAll fold (term.map .literal ++ [.anyText]) text = true ↔
      term.map fold <+: text.map fold := by
  induction term generalizing text with
  | nil =>
    simp only [List.map_nil, List.nil_append, List.nil_prefix, iff_true]
    exact matchAll_anyText fold text
  | cons c rest ih =>
    cases text with
    | nil => simp [matchAll]
    | cons c' text =>
      rw [List.map_cons, List.cons_append, matchAll, Bool.and_eq_true, decide_eq_true_eq, ih,
        List.map_cons, List.map_cons, List.cons_prefix_cons]

/-- Between two open ends they match the texts in which they occur. -/
theorem matchAll_contained (fold : Char → Char) (term text : List Char) :
    matchAll fold (.anyText :: (term.map .literal ++ [.anyText])) text = true ↔
      term.map fold <:+: text.map fold := by
  rw [matchAll, List.any_eq_true]
  simp only [List.mem_tails, matchAll_literals]
  constructor
  · rintro ⟨rest, hsuffix, hprefix⟩
    exact hprefix.isInfix.trans (hsuffix.map fold).isInfix
  · intro hpart
    obtain ⟨folded, hprefix, hsuffix⟩ := List.infix_iff_prefix_suffix.mp hpart
    obtain ⟨rest, hrest, rfl⟩ := List.suffix_map_iff.mp hsuffix
    exact ⟨rest, hrest, hprefix⟩

end PatternPart

/-- Whether a text is like a pattern, where literal characters are compared up to a folding; no
answer for a pattern that ends in a backslash that escapes nothing. -/
def isLike? (fold : Char → Char) (pattern text : String) : Option Bool :=
  (PatternPart.ofPattern? pattern.toList).map fun parts =>
    PatternPart.matchAll fold parts text.toList

/-- The pattern for a term is a pattern, in which every character of the term is literal; and the
texts like it are those in which the term occurs, as it is or up to any folding of characters. -/
theorem containsPattern_matches (term : String) :
    PatternPart.ofPattern? (containsPattern term).toList =
        some (.anyText :: (term.toList.map .literal ++ [.anyText])) ∧
      (∀ text, isLike? id (containsPattern term) text =
        some (decide (term.toList <:+: text.toList))) ∧
      ∀ fold text, isLike? fold (containsPattern term) text =
        some (decide (term.toList.map fold <:+: text.toList.map fold)) := by
  have hparts : PatternPart.ofPattern? (containsPattern term).toList =
      some (.anyText :: (term.toList.map .literal ++ [.anyText])) := by
    rw [containsPattern, String.toList_ofList, PatternPart.ofPattern?,
      PatternPart.ofPattern?_escaped]
    rfl
  have hlike : ∀ fold text, isLike? fold (containsPattern term) text =
      some (decide (term.toList.map fold <:+: text.toList.map fold)) := by
    intro fold text
    rw [isLike?, hparts, Option.map_some, Option.some_inj, Bool.eq_iff_iff, decide_eq_true_eq]
    exact PatternPart.matchAll_contained fold term.toList text.toList
  refine ⟨hparts, fun text => ?_, hlike⟩
  simpa using hlike id text

/-- A term with both wildcards that ends in a backslash; unescaped, it would be no pattern. -/
example :
    isLike? id (containsPattern "50%_\\") "at 50%_\\!" = some true ∧
      isLike? id (containsPattern "50%_\\") "at 50 %_\\" = some false ∧
      isLike? id "50%_\\" "50" = none := by
  decide +kernel

end Records.Sql
