import Mathlib.Data.List.Forall2
import Records.Proofs.Number.Numeral
import Records.Proofs.Text.Utf8
import Records.Text.Percent

/-!
# Encoded segments read back

A text is encoded in a segment of a path with its unreserved characters as they are and every byte
of the others after a percent sign.  The segment is decoded to that text (`decodeSegment?_encodes`),
and no slash stands in it (`slash_not_mem_of_encodes`).
-/

set_option autoImplicit false

namespace Records.Text

/-- The characters that need no encoding anywhere. -/
def isUnreserved (c : Char) : Bool :=
  c.isAlphanum || c = '-' || c = '.' || c = '_' || c = '~'

/-- A byte as two hexadecimal digits, in either case, after a percent sign. -/
def EncodesByte (byte : UInt8) (triple : List Char) : Prop :=
  ∃ high low : Char, triple = ['%', high, low] ∧
    hexValue? high.toNat = some (byte.toNat / 16) ∧ hexValue? low.toNat = some (byte.toNat % 16)

/-- A text in a segment of a path: unreserved characters as they are, the bytes of all others
encoded. -/
inductive Encodes : List Char → List Char → Prop
  | nil : Encodes [] []
  | plain {c : Char} {rest segment : List Char} (unreserved : isUnreserved c = true)
      (others : Encodes rest segment) : Encodes (c :: rest) (c :: segment)
  | bytes {c : Char} {rest segment : List Char} {triples : List (List Char)}
      (reserved : isUnreserved c = false)
      (encoded : List.Forall₂ EncodesByte (String.utf8EncodeChar c) triples)
      (others : Encodes rest segment) : Encodes (c :: rest) (triples.flatten ++ segment)

/-- A text without reserved characters encodes itself. -/
theorem encodes_self {text : List Char} (h : ∀ c ∈ text, isUnreserved c = true) :
    Encodes text text := by
  induction text with
  | nil => exact .nil
  | cons c rest ih =>
    obtain ⟨hc, hrest⟩ := List.forall_mem_cons.mp h
    exact .plain hc (ih hrest)

/-- The codes of hexadecimal digits are those of one-byte characters from `0` on. -/
theorem code_of_hexValue? {code value : Nat} (h : hexValue? code = some value) :
    48 ≤ code ∧ code < 128 := by
  unfold hexValue? at h
  split at h
  · omega
  · split at h
    · omega
    · split at h
      · omega
      · cases h

/-- The unreserved characters take one byte. -/
theorem code_of_isUnreserved {c : Char} (h : isUnreserved c = true) : c.toNat < 128 := by
  simp only [isUnreserved, Char.isAlphanum, Bool.or_eq_true, decide_eq_true_eq] at h
  rcases h with ((((hletter | hdigit) | rfl) | rfl) | rfl) | rfl
  · rcases Bool.or_eq_true_iff.mp hletter with hupper | hlower
    · have hlast : c.val ≤ 'Z'.val := (of_decide_eq_true hupper).2
      exact Nat.lt_of_le_of_lt (UInt32.le_iff_toNat_le.mp hlast) (by decide)
    · have hlast : c.val ≤ 'z'.val := of_decide_eq_true (Bool.and_eq_true_iff.mp hlower).2
      exact Nat.lt_of_le_of_lt (UInt32.le_iff_toNat_le.mp hlast) (by decide)
  · exact Nat.lt_of_le_of_lt (Numeral.code_of_isDigit hdigit).2 (by decide)
  all_goals decide

/-- A mark that has to be encoded is no unreserved character. -/
theorem ne_of_isUnreserved {c mark : Char} (h : isUnreserved c = true)
    (hmark : isUnreserved mark = false) : c ≠ mark := by
  rintro rfl
  rw [h] at hmark
  cases hmark

/-- A character of one byte is encoded as its code. -/
theorem utf8_cons_of_lt {c : Char} (h : c.toNat < 128) (rest : List Char) :
    utf8 (c :: rest) = UInt8.ofNat c.toNat :: utf8 rest := by
  have hc : String.utf8EncodeChar c = [UInt8.ofNat c.toNat] := by
    rw [String.utf8EncodeChar]
    exact if_pos (Nat.le_of_lt_succ h)
  rw [utf8, List.flatMap_cons, hc]
  rfl

/-- A byte other than the percent sign is decoded as itself. -/
theorem percentDecode_cons_of_ne {b : UInt8} (h : b ≠ 37) (rest : List UInt8) :
    percentDecode (b :: rest) = b :: percentDecode rest := by
  rw [percentDecode.eq_def]
  simp only [if_neg h]

/-- A percent sign with two digits is decoded as the byte that they write. -/
theorem percentDecode_triple {byte : UInt8} {triple : List Char} (h : EncodesByte byte triple)
    (rest : List Char) :
    percentDecode (utf8 (triple ++ rest)) = byte :: percentDecode (utf8 rest) := by
  obtain ⟨high, low, rfl, hhigh, hlow⟩ := h
  have hhighCode := code_of_hexValue? hhigh
  have hlowCode := code_of_hexValue? hlow
  have hpair : hexPair? (UInt8.ofNat high.toNat) (UInt8.ofNat low.toNat) = some byte := by
    rw [hexPair?, toNat_ofNat (by omega), toNat_ofNat (by omega), hhigh, hlow]
    simp only [Nat.div_add_mod, UInt8.ofNat_toNat]
  have hbytes : utf8 (['%', high, low] ++ rest) =
      37 :: UInt8.ofNat high.toNat :: UInt8.ofNat low.toNat :: utf8 rest := by
    show utf8 ('%' :: high :: low :: rest) = _
    rw [utf8_cons_of_lt (by decide), utf8_cons_of_lt hhighCode.2, utf8_cons_of_lt hlowCode.2]
    rfl
  rw [hbytes, percentDecode, if_pos rfl]
  simp only [hpair]

/-- Bytes that are written by percent signs are decoded in their order. -/
theorem percentDecode_triples {bytes : List UInt8} {triples : List (List Char)}
    (h : List.Forall₂ EncodesByte bytes triples) (rest : List Char) :
    percentDecode (utf8 (triples.flatten ++ rest)) = bytes ++ percentDecode (utf8 rest) := by
  induction h with
  | nil => rfl
  | cons hbyte _ ih =>
    rw [List.flatten_cons, List.append_assoc, percentDecode_triple hbyte, ih, List.cons_append]

/-- No slash stands in bytes that are written by percent signs. -/
theorem slash_not_mem_of_encodesByte {bytes : List UInt8} {triples : List (List Char)}
    (h : List.Forall₂ EncodesByte bytes triples) : '/' ∉ triples.flatten := by
  induction h with
  | nil => simp
  | cons hbyte _ ih =>
    obtain ⟨high, low, rfl, hhigh, hlow⟩ := hbyte
    have hdigit : ∀ {c : Char} {value : Nat}, hexValue? c.toNat = some value → '/' ≠ c := by
      rintro c value hc rfl
      cases hc
    rw [List.flatten_cons, List.mem_append, not_or]
    exact ⟨by simp [hdigit hhigh, hdigit hlow], ih⟩

section

variable {text segment : List Char} (h : Encodes text segment)

include h

/-- Decoding a segment gives the bytes of its text. -/
theorem percentDecode_encodes : percentDecode (utf8 segment) = utf8 text := by
  induction h with
  | nil => rfl
  | @plain c rest segment unreserved _ ih =>
    have hbyte : UInt8.ofNat c.toNat ≠ 37 := by
      intro heq
      have hcode := congrArg UInt8.toNat heq
      rw [toNat_ofNat (Nat.lt_trans (code_of_isUnreserved unreserved) (by decide))] at hcode
      exact ne_of_isUnreserved unreserved (rfl : isUnreserved '%' = false) (Char.toNat_inj.mp hcode)
    rw [utf8_cons_of_lt (code_of_isUnreserved unreserved), percentDecode_cons_of_ne hbyte, ih,
      utf8_cons_of_lt (code_of_isUnreserved unreserved)]
  | bytes _ encoded _ ih =>
    rw [percentDecode_triples encoded, ih]
    rfl

/-- A segment is decoded to the text that it encodes. -/
theorem decodeSegment?_encodes : decodeSegment? segment = some (String.ofList text) := by
  rw [decodeSegment?, percentDecode_encodes h, decode?_utf8]
  rfl

/-- No slash stands in an encoded segment. -/
theorem slash_not_mem_of_encodes : '/' ∉ segment := by
  induction h with
  | nil => simp
  | plain unreserved _ ih =>
    rw [List.mem_cons, not_or]
    exact ⟨(ne_of_isUnreserved unreserved rfl).symm, ih⟩
  | bytes _ encoded _ ih =>
    rw [List.mem_append, not_or]
    exact ⟨slash_not_mem_of_encodesByte encoded, ih⟩

/-- An encoded segment is the text itself, or it has a percent sign for a character that is not
unreserved. -/
theorem eq_or_percent_mem_of_encodes :
    segment = text ∨ '%' ∈ segment ∧ ∃ c ∈ text, isUnreserved c = false := by
  induction h with
  | nil => exact .inl rfl
  | plain _ _ ih =>
    rcases ih with rfl | ⟨hpercent, c, hc, hreserved⟩
    · exact .inl rfl
    · exact .inr ⟨List.mem_cons_of_mem _ hpercent, c, List.mem_cons_of_mem _ hc, hreserved⟩
  | @bytes c _ _ _ reserved encoded _ _ =>
    refine .inr ⟨?_, c, List.mem_cons_self, reserved⟩
    -- a character has at least one byte, and so at least one percent sign
    obtain ⟨byte, others, hbytes⟩ :=
      List.exists_cons_of_ne_nil (String.utf8EncodeChar_ne_nil (c := c))
    rw [hbytes] at encoded
    cases encoded with
    | cons hbyte _ =>
      obtain ⟨high, low, rfl, _⟩ := hbyte
      simp

/-- A word without reserved characters is encoded by itself only, and by it no other text is. -/
theorem encodes_eq_iff {word : List Char} (hword : ∀ c ∈ word, isUnreserved c = true) :
    segment = word ↔ text = word := by
  rcases eq_or_percent_mem_of_encodes h with rfl | ⟨hpercent, c, hc, hreserved⟩
  · exact Iff.rfl
  · constructor
    · rintro rfl
      exact absurd (hword '%' hpercent) (by decide)
    · rintro rfl
      rw [hword c hc] at hreserved
      cases hreserved

end

end Records.Text
