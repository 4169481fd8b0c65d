import Mathlib.Data.List.SplitLengths
import Records.Proofs.Number.Places
import Records.Proofs.Outcome
import Records.Proofs.Text.Split
import Records.Uuid

/-!
# Spellings of an identifier

An identifier of 128 bits is spelled by thirty-two hexadecimal digits in either case, in one of four
layouts.  The layouts have different lengths, so a text is read in its own layout
(`digits?_eq_some_iff`), and the normal form of what is read spells the same value and is its own
normal form.
-/

set_option autoImplicit false

namespace Records.Uuid

/-- Characters in groups of 8, 4, 4, 4 and 12, with hyphens between them. -/
def grouped (chars : List Char) : List Char :=
  Text.joinWith '-' ([8, 4, 4, 4, 12].splitLengths chars)

/-- The layouts of the characters of an identifier: one run, groups, groups in braces, and groups
after the name of the namespace in either case. -/
inductive Layout (chars : List Char) : List Char → Prop
  | plain : Layout chars chars
  | grouped : Layout chars (grouped chars)
  | braced : Layout chars ('\x7b' :: (grouped chars ++ ['\x7d']))
  | named {tag : List Char} (h : tag.map Text.lowerAscii = "urn:uuid:".toList) :
      Layout chars (tag ++ grouped chars)

/-- A text spells a value of 128 bits. -/
def Spells (raw : String) (value : BitVec 128) : Prop :=
  ∃ chars, chars.length = 32 ∧ Numeral.SpellsIn 16 digit? chars value.toNat ∧
    Layout chars raw.toList

/-- An identifier in normal form: five groups of lower-case digits, thirty-six characters. -/
structure IsNormal (id : String) : Prop where
  length : id.length = 36
  groups : ∃ chars, id.toList = grouped chars ∧ chars.length = 32 ∧
    ∀ c ∈ chars, c ∈ "0123456789abcdef".toList

/-! ## Layouts -/

/-- Parts that are joined are split again by their lengths. -/
theorem splitLengths_flatten (parts : List (List Char)) :
    (parts.map List.length).splitLengths parts.flatten = parts := by
  induction parts with
  | nil => rfl
  | cons part rest ih => simp [ih]

section

variable {text chars : List Char} {digits : List Nat}

/-- Groups of 32 characters have 36 with their hyphens. -/
theorem length_grouped (h : chars.length = 32) : (grouped chars).length = 36 := by
  simp [grouped, Text.joinWith, h]

/-- The hyphens are taken out of five groups, and of nothing else. -/
theorem dropHyphens?_eq_some_iff (hplain : '-' ∉ chars) : dropHyphens? text = some chars ↔
    chars.length = 32 ∧ text = grouped chars := by
  simp only [dropHyphens?]
  constructor
  · intro h
    split at h
    · rename_i hlengths
      cases h
      constructor
      · rw [List.length_flatten, hlengths]
        rfl
      · rw [grouped, ← hlengths, splitLengths_flatten, Text.joinWith_splitAt]
    · cases h
  · rintro ⟨hlength, rfl⟩
    have hflatten : ([8, 4, 4, 4, 12].splitLengths chars).flatten = chars :=
      List.flatten_splitLengths chars _ (by simp [hlength])
    have hgroups : Text.splitAt '-' (grouped chars) = [8, 4, 4, 4, 12].splitLengths chars := by
      apply Text.splitAt_joinWith
      · simp
      · intro part hpart hmem
        exact hplain (hflatten ▸ List.mem_flatten_of_mem hpart hmem)
    rw [hgroups, if_pos (List.map_splitLengths_length chars _ (by simp [hlength])), hflatten]

/-- One run is read exactly when it is 32 digits. -/
theorem plain?_eq_some_iff : plain? text = some digits ↔
    text.length = 32 ∧ Numeral.DigitsOf digit? text digits := by
  simp only [plain?, Option.ite_none_right_eq_some, Outcome.mapM_eq_some]

/-- No hyphen is a digit. -/
theorem not_mem_of_digitsOf (h : Numeral.DigitsOf digit? chars digits) :
    '-' ∉ chars := by
  induction h with
  | nil => simp
  | cons hfirst _ ih =>
    refine List.not_mem_cons_of_ne_of_not_mem ?_ ih
    rintro rfl
    cases hfirst

/-- Groups are read exactly when they are 32 digits grouped. -/
theorem grouped?_eq_some_iff : grouped? text = some digits ↔
    ∃ chars, chars.length = 32 ∧ Numeral.DigitsOf digit? chars digits ∧
      text = grouped chars := by
  simp only [grouped?, Option.bind_eq_some_iff, plain?_eq_some_iff]
  constructor
  · rintro ⟨chars, hchars, hlength, hdigits⟩
    exact ⟨chars, hlength, hdigits,
      ((dropHyphens?_eq_some_iff (not_mem_of_digitsOf hdigits)).mp hchars).2⟩
  · rintro ⟨chars, hlength, hdigits, htext⟩
    exact ⟨chars, (dropHyphens?_eq_some_iff (not_mem_of_digitsOf hdigits)).mpr ⟨hlength, htext⟩,
      hlength, hdigits⟩

/-- Braces are taken off exactly when they are around the text. -/
theorem braced?_eq_some_iff {inner : List Char} :
    braced? text = some inner ↔ text = '{' :: (inner ++ ['}']) := by
  constructor
  · intro h
    rw [braced?.eq_def] at h
    split at h
    · rename_i rest
      split at h
      · rename_i hlast
        obtain ⟨inner, rfl⟩ := List.getLast?_eq_some_iff.mp hlast
        cases h
        rw [List.dropLast_concat]
      · cases h
    · cases h
  · rintro rfl
    simp [braced?]

/-- The namespace is taken off exactly when the text begins with it, in any case. -/
theorem afterNamespace?_eq_some_iff {rest : List Char} : afterNamespace? text = some rest ↔
    ∃ tag : List Char, tag.map Text.lowerAscii = "urn:uuid:".toList ∧ text = tag ++ rest := by
  simp only [afterNamespace?, Option.ite_none_right_eq_some, Option.some.injEq]
  constructor
  · rintro ⟨htag, rfl⟩
    exact ⟨text.take 9, htag, (List.take_append_drop 9 text).symm⟩
  · rintro ⟨tag, htag, rfl⟩
    have hlength : tag.length = 9 := by simpa using congrArg List.length htag
    rw [List.take_left' hlength, List.drop_left' hlength]
    exact ⟨htag, rfl⟩

/-- One run is not read from a text of another length. -/
theorem plain?_eq_none (h : text.length ≠ 32) : plain? text = none := if_neg h

/-- Groups are not read from a text of another length. -/
theorem grouped?_eq_none (h : text.length ≠ 36) : grouped? text = none := by
  rw [Option.eq_none_iff_forall_ne_some]
  intro digits hdigits
  obtain ⟨chars, hlength, _, rfl⟩ := grouped?_eq_some_iff.mp hdigits
  exact h (length_grouped hlength)

/-- Groups in braces are not read from a text of another length. -/
theorem braced?_bind_eq_none (h : text.length ≠ 38) : (braced? text).bind grouped? = none := by
  cases hbraced : braced? text with
  | none => rfl
  | some inner =>
    obtain rfl := braced?_eq_some_iff.mp hbraced
    rw [Option.bind_some, grouped?_eq_none]
    rintro hlength
    simp [hlength] at h

/-- A text is read in its own layout: the lengths of the layouts tell them apart. -/
theorem digits?_eq_some_iff : digits? text = some digits ↔
    ∃ chars, chars.length = 32 ∧ Numeral.DigitsOf digit? chars digits ∧
      Layout chars text := by
  simp only [digits?]
  constructor
  · intro h
    split at h
    · rename_i hplain
      cases h
      obtain ⟨hlength, hdigits⟩ := plain?_eq_some_iff.mp hplain
      exact ⟨text, hlength, hdigits, .plain⟩
    · split at h
      · rename_i hgrouped
        cases h
        obtain ⟨chars, hlength, hdigits, rfl⟩ := grouped?_eq_some_iff.mp hgrouped
        exact ⟨chars, hlength, hdigits, .grouped⟩
      · split at h
        · rename_i hbraced
          cases h
          obtain ⟨inner, hinner, hgrouped⟩ := Option.bind_eq_some_iff.mp hbraced
          obtain ⟨chars, hlength, hdigits, rfl⟩ := grouped?_eq_some_iff.mp hgrouped
          exact ⟨chars, hlength, hdigits, braced?_eq_some_iff.mp hinner ▸ .braced⟩
        · obtain ⟨rest, hrest, hgrouped⟩ := Option.bind_eq_some_iff.mp h
          obtain ⟨chars, hlength, hdigits, rfl⟩ := grouped?_eq_some_iff.mp hgrouped
          obtain ⟨tag, htag, rfl⟩ := afterNamespace?_eq_some_iff.mp hrest
          exact ⟨chars, hlength, hdigits, .named htag⟩
  · rintro ⟨chars, hlength, hdigits, hlayout⟩
    have hgrouped : grouped? (grouped chars) = some digits :=
      grouped?_eq_some_iff.mpr ⟨chars, hlength, hdigits, rfl⟩
    -- the layouts differ in length, so those tried earlier do not read the text
    have hgroups := length_grouped hlength
    cases hlayout with
    | plain => rw [plain?_eq_some_iff.mpr ⟨hlength, hdigits⟩]
    | grouped => rw [plain?_eq_none (by omega), hgrouped]
    | braced =>
      have htext : ('{' :: (grouped chars ++ ['}'])).length = 38 := by simp [hgroups]
      rw [plain?_eq_none (by omega), grouped?_eq_none (by omega), braced?_eq_some_iff.mpr rfl,
        Option.bind_some, hgrouped]
    | @named tag htag =>
      have hnine : tag.length = 9 := by simpa using congrArg List.length htag
      have htext : (tag ++ grouped chars).length = 45 := by simp [hnine, hgroups]
      rw [plain?_eq_none (by omega), grouped?_eq_none (by omega), braced?_bind_eq_none (by omega),
        afterNamespace?_eq_some_iff.mpr ⟨tag, htag, rfl⟩, Option.bind_some, hgrouped]

/-- An identifier has thirty-two digits. -/
theorem length_and_lt_of_digits? (h : digits? text = some digits) :
    digits.length = 32 ∧ ∀ d ∈ digits, d < 16 := by
  obtain ⟨chars, hlength, hdigits, _⟩ := digits?_eq_some_iff.mp h
  refine ⟨hdigits.length_eq ▸ hlength, fun d hd => ?_⟩
  obtain ⟨c, _, hc⟩ := Outcome.exists_of_forall₂_right hdigits hd
  exact Text.hexValue?_lt hc

end

/-! ## Normal forms -/

section

variable {digits others : List Nat}

/-- The text of digits is their characters grouped. -/
theorem text_eq_grouped (h : digits.length = 32) :
    text digits = grouped (digits.map Text.hexDigit) := by
  have hlast : ((digits.map Text.hexDigit).drop 20).take 12 = (digits.map Text.hexDigit).drop 20 :=
    List.take_of_length_le (by simp [h])
  simp [text, grouped, Text.joinWith, hlast]

/-- The digits of an identifier are read back from its normal form. -/
theorem digits?_text (hlength : digits.length = 32) (h : ∀ d ∈ digits, d < 16) :
    digits? (text digits) = some digits := by
  refine digits?_eq_some_iff.mpr ⟨digits.map Text.hexDigit, by simpa using hlength, ?_,
    text_eq_grouped hlength ▸ .grouped⟩
  exact List.forall₂_map_left_iff.mpr (List.forall₂_same.mpr fun d hd =>
    Text.hexValue?_hexDigit (h d hd))

/-- The text of 32 digits is in normal form. -/
theorem isNormal_text (hlength : digits.length = 32) (h : ∀ d ∈ digits, d < 16) :
    IsNormal (String.ofList (text digits)) := by
  have hgrouped := text_eq_grouped hlength
  have hchars : (digits.map Text.hexDigit).length = 32 := by simpa using hlength
  constructor
  · rw [String.length_ofList, hgrouped, length_grouped hchars]
  · refine ⟨digits.map Text.hexDigit, by rw [String.toList_ofList, hgrouped], hchars, ?_⟩
    intro c hc
    obtain ⟨d, hd, rfl⟩ := List.mem_map.mp hc
    have htable : ∀ d < 16, Text.hexDigit d ∈ "0123456789abcdef".toList := by decide
    exact htable d (h d hd)

variable {raw other id : String} {a b : BitVec 128}

/-- A text spells a value exactly when its digits are read and have that value. -/
theorem spells_iff_digits? : Spells raw a ↔
    ∃ digits, digits? raw.toList = some digits ∧ a.toNat = Nat.ofDigits 16 digits.reverse := by
  simp only [Spells, Numeral.SpellsIn, digits?_eq_some_iff]
  grind

/-- Digits spell a value of 128 bits. -/
theorem exists_spells_iff : (∃ a, Spells raw a) ↔ ∃ digits, digits? raw.toList = some digits := by
  simp only [spells_iff_digits?]
  constructor
  · rintro ⟨a, digits, h, _⟩
    exact ⟨digits, h⟩
  · rintro ⟨digits, h⟩
    obtain ⟨hlength, hdigits⟩ := length_and_lt_of_digits? h
    have hbound : Nat.ofDigits 16 digits.reverse < 2 ^ 128 := by
      have hlt := Nat.ofDigits_lt_base_pow_length (b := 16) (l := digits.reverse) (by decide)
        (by simpa using hdigits)
      rw [List.length_reverse, hlength] at hlt
      exact hlt
    exact ⟨BitVec.ofNatLT _ hbound, digits, h, rfl⟩

/-- Digits are told apart by the values that they spell. -/
theorem digits_eq_iff (hdigits : digits? raw.toList = some digits)
    (hothers : digits? other.toList = some others) :
    digits = others ↔ Nat.ofDigits 16 digits.reverse = Nat.ofDigits 16 others.reverse := by
  constructor
  · rintro rfl
    rfl
  · intro h
    obtain ⟨hlength, hlt⟩ := length_and_lt_of_digits? hdigits
    obtain ⟨hlength', hlt'⟩ := length_and_lt_of_digits? hothers
    apply List.reverse_injective
    exact Nat.ofDigits_inj_of_len_eq (by decide) (by simp [hlength, hlength']) (by simpa using hlt)
      (by simpa using hlt') h

/-- A text is normalized exactly when it spells a value. -/
theorem exists_normalize?_iff : (∃ id, normalize? raw = some id) ↔ ∃ a, Spells raw a := by
  rw [exists_spells_iff]
  simp [normalize?, Option.map_eq_some_iff]

/-- The normal form of an identifier is normal, and its own normal form. -/
theorem isNormal_of_normalize? (h : normalize? raw = some id) :
    IsNormal id ∧ normalize? id = some id := by
  obtain ⟨digits, hdigits, rfl⟩ := Option.map_eq_some_iff.mp h
  obtain ⟨hlength, hlt⟩ := length_and_lt_of_digits? hdigits
  refine ⟨isNormal_text hlength hlt, ?_⟩
  rw [normalize?, String.toList_ofList, digits?_text hlength hlt]
  rfl

/-- Two spellings have one normal form when they spell one value. -/
theorem normalize?_eq_iff (ha : Spells raw a) (hb : Spells other b) :
    normalize? raw = normalize? other ↔ a = b := by
  obtain ⟨digits, hdigits, hvalue⟩ := spells_iff_digits?.mp ha
  obtain ⟨others, hothers, hvalue'⟩ := spells_iff_digits?.mp hb
  rw [← BitVec.toNat_inj, hvalue, hvalue', ← digits_eq_iff hdigits hothers, normalize?, normalize?,
    hdigits, hothers]
  constructor
  · intro h
    have htexts : text digits = text others := String.ofList_injective (Option.some.inj h)
    obtain ⟨hlength, hlt⟩ := length_and_lt_of_digits? hdigits
    obtain ⟨hlength', hlt'⟩ := length_and_lt_of_digits? hothers
    have hread := digits?_text hlength hlt
    rw [htexts, digits?_text hlength' hlt'] at hread
    exact (Option.some.inj hread).symm
  · rintro rfl
    rfl

end

end Records.Uuid
