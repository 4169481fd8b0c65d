import Records.Text.Utf8

/-!
# UTF-8 read back

The bytes of a text are read as that text (`decode?_utf8`).  A character takes one to four bytes, by
the size of its code; its first byte tells how many follow, and the bounds of the second one shut
out what is no code of a character or could be written shorter.
-/

set_option autoImplicit false

namespace Records.Text

/-- What a lead byte says of its sequence, by the ranges of its value. -/
theorem sequenceShape_eq (lead : UInt8) :
    sequenceShape lead =
      if 0xC2 ≤ lead.toNat ∧ lead.toNat ≤ 0xDF then some (1, 0x80, 0xBF)
      else if lead.toNat = 0xE0 then some (2, 0xA0, 0xBF)
      else if lead.toNat = 0xED then some (2, 0x80, 0x9F)
      else if 0xE1 ≤ lead.toNat ∧ lead.toNat ≤ 0xEF then some (2, 0x80, 0xBF)
      else if lead.toNat = 0xF0 then some (3, 0x90, 0xBF)
      else if 0xF1 ≤ lead.toNat ∧ lead.toNat ≤ 0xF3 then some (3, 0x80, 0xBF)
      else if lead.toNat = 0xF4 then some (3, 0x80, 0x8F)
      else none := by
  simp only [sequenceShape, UInt8.le_iff_toNat_le, ← UInt8.toNat_inj]
  rfl

/-- A number below 256 is the value of its byte. -/
theorem toNat_ofNat {n : Nat} (h : n < 256) : (UInt8.ofNat n).toNat = n := by
  rw [UInt8.toNat_ofNat', Nat.mod_eq_of_lt h]

/-- A continuation byte within its bounds adds six bits. -/
theorem continuation_cons {low high : UInt8} {n : Nat} (hlow : low.toNat ≤ n % 64 + 0x80)
    (hhigh : n % 64 + 0x80 ≤ high.toNat) (value count : Nat) (rest : List UInt8) :
    continuation low high value (count + 1) (UInt8.ofNat (n % 64 + 0x80) :: rest) =
      continuation 0x80 0xBF (value * 64 + n % 64) count rest := by
  have hbyte : (UInt8.ofNat (n % 64 + 0x80)).toNat = n % 64 + 0x80 := toNat_ofNat (by omega)
  rw [continuation, if_pos, hbyte]
  · congr 2
    omega
  · rw [UInt8.le_iff_toNat_le, UInt8.le_iff_toNat_le, hbyte]
    exact ⟨hlow, hhigh⟩

/-- A continuation byte adds its six bits. -/
theorem continuation_cons_of_plain (n value count : Nat) (rest : List UInt8) :
    continuation 0x80 0xBF value (count + 1) (UInt8.ofNat (n % 64 + 0x80) :: rest) =
      continuation 0x80 0xBF (value * 64 + n % 64) count rest := by
  apply continuation_cons
  · exact Nat.le_add_left _ _
  · show n % 64 + 0x80 ≤ 0xBF
    omega

/-- A sequence is read as its lead byte says. -/
theorem next_of_shape {lead : UInt8} {count : Nat} {low high : UInt8}
    (h : sequenceShape lead = some (count, low, high)) (hlead : 0x80 ≤ lead.toNat)
    (rest : List UInt8) :
    next lead rest =
      ((continuation low high (leadBits lead count) count rest).1.map Char.ofNat,
        (continuation low high (leadBits lead count) count rest).2) := by
  have hnot : ¬ lead < 0x80 := by
    rw [UInt8.lt_iff_toNat_lt]
    exact Nat.not_lt.mpr hlead
  rw [next, if_neg hnot, h]

section

variable {n : Nat} (rest : List UInt8)

/-- The one byte of a character below 128 is read as that character. -/
theorem next_one (h : n < 0x80) : next (UInt8.ofNat n) rest = (some (Char.ofNat n), rest) := by
  have hbyte : (UInt8.ofNat n).toNat = n := toNat_ofNat (by omega)
  have hlead : UInt8.ofNat n < 0x80 := by
    rw [UInt8.lt_iff_toNat_lt, hbyte]
    exact h
  rw [next, if_pos hlead, hbyte]

/-- The two bytes of a character are read as that character. -/
theorem next_two (hlow : 0x80 ≤ n) (hhigh : n ≤ 0x7ff) :
    next (UInt8.ofNat (n / 64 % 0x20 + 0xc0)) (UInt8.ofNat (n % 0x40 + 0x80) :: rest) =
      (some (Char.ofNat n), rest) := by
  have hbyte : (UInt8.ofNat (n / 64 % 0x20 + 0xc0)).toNat = n / 64 % 0x20 + 0xc0 :=
    toNat_ofNat (by omega)
  have hshape : sequenceShape (UInt8.ofNat (n / 64 % 0x20 + 0xc0)) = some (1, 0x80, 0xBF) := by
    rw [sequenceShape_eq, hbyte, if_pos (by omega)]
  have hbits : leadBits (UInt8.ofNat (n / 64 % 0x20 + 0xc0)) 1 = n / 64 := by
    rw [leadBits, hbyte]
    show (n / 64 % 0x20 + 0xc0) % 32 = n / 64
    omega
  rw [next_of_shape hshape (by omega), hbits, continuation_cons_of_plain, continuation,
    Nat.div_add_mod']
  rfl

/-- The three bytes of a character, no surrogate, are read as that character. -/
theorem next_three (hlow : 0x800 ≤ n) (hhigh : n ≤ 0xffff) (hvalid : n < 0xD800 ∨ 0xDFFF < n) :
    next (UInt8.ofNat (n / 4096 % 0x10 + 0xe0))
        (UInt8.ofNat (n / 64 % 0x40 + 0x80) :: UInt8.ofNat (n % 0x40 + 0x80) :: rest) =
      (some (Char.ofNat n), rest) := by
  have hbyte : (UInt8.ofNat (n / 4096 % 0x10 + 0xe0)).toNat = n / 4096 % 0x10 + 0xe0 :=
    toNat_ofNat (by omega)
  -- a first byte without bits, or one that surrogates share, bounds the second byte more closely
  obtain ⟨low, high, hshape, hsecond⟩ : ∃ low high : UInt8,
      sequenceShape (UInt8.ofNat (n / 4096 % 0x10 + 0xe0)) = some (2, low, high) ∧
        low.toNat ≤ n / 64 % 64 + 0x80 ∧ n / 64 % 64 + 0x80 ≤ high.toNat := by
    rw [sequenceShape_eq, hbyte, if_neg (by omega)]
    split
    · exact ⟨0xA0, 0xBF, rfl, by simp; omega⟩
    · split
      · exact ⟨0x80, 0x9F, rfl, by simp; omega⟩
      · rw [if_pos (by omega)]
        exact ⟨0x80, 0xBF, rfl, by simp; omega⟩
  have hbits : leadBits (UInt8.ofNat (n / 4096 % 0x10 + 0xe0)) 2 = n / 4096 := by
    rw [leadBits, hbyte]
    show (n / 4096 % 0x10 + 0xe0) % 16 = n / 4096
    omega
  have hvalue : (n / 4096 * 64 + n / 64 % 64) * 64 + n % 64 = n := by omega
  rw [next_of_shape hshape (by omega), hbits, continuation_cons hsecond.1 hsecond.2,
    continuation_cons_of_plain, continuation, hvalue]
  rfl

/-- The four bytes of a character are read as that character. -/
theorem next_four (hlow : 0x10000 ≤ n) (hhigh : n < 0x110000) :
    next (UInt8.ofNat (n / 262144 % 0x08 + 0xf0))
        (UInt8.ofNat (n / 4096 % 0x40 + 0x80) :: UInt8.ofNat (n / 64 % 0x40 + 0x80) ::
          UInt8.ofNat (n % 0x40 + 0x80) :: rest) =
      (some (Char.ofNat n), rest) := by
  have hbyte : (UInt8.ofNat (n / 262144 % 0x08 + 0xf0)).toNat = n / 262144 % 0x08 + 0xf0 :=
    toNat_ofNat (by omega)
  obtain ⟨low, high, hshape, hsecond⟩ : ∃ low high : UInt8,
      sequenceShape (UInt8.ofNat (n / 262144 % 0x08 + 0xf0)) = some (3, low, high) ∧
        low.toNat ≤ n / 4096 % 64 + 0x80 ∧ n / 4096 % 64 + 0x80 ≤ high.toNat := by
    rw [sequenceShape_eq, hbyte, if_neg (by omega), if_neg (by omega), if_neg (by omega),
      if_neg (by omega)]
    split
    · exact ⟨0x90, 0xBF, rfl, by simp; omega⟩
    · split
      · exact ⟨0x80, 0xBF, rfl, by simp; omega⟩
      · rw [if_pos (by omega)]
        exact ⟨0x80, 0x8F, rfl, by simp; omega⟩
  -- the lead byte carries the bits above the third group of six
  have hbits : leadBits (UInt8.ofNat (n / 262144 % 0x08 + 0xf0)) 3 = n / 262144 := by
    rw [leadBits, hbyte]
    show (n / 262144 % 0x08 + 0xf0) % 8 = n / 262144
    omega
  have hvalue : ((n / 262144 * 64 + n / 4096 % 64) * 64 + n / 64 % 64) * 64 + n % 64 = n := by
    omega
  rw [next_of_shape hshape (by omega), hbits, continuation_cons hsecond.1 hsecond.2,
    continuation_cons_of_plain, continuation_cons_of_plain, continuation, hvalue]
  rfl

/-- The bytes of a character are read as that character. -/
theorem next_utf8EncodeChar (c : Char) : ∃ lead tail,
    String.utf8EncodeChar c = lead :: tail ∧ next lead (tail ++ rest) = (some c, rest) := by
  have hvalid : c.val.toNat < 0xD800 ∨ 0xDFFF < c.val.toNat ∧ c.val.toNat < 0x110000 := c.valid
  have hchar : Char.ofNat c.val.toNat = c := Char.ofNat_toNat c
  unfold String.utf8EncodeChar
  generalize c.val.toNat = n at hvalid hchar
  subst hchar
  simp only
  split
  · exact ⟨_, _, rfl, next_one rest (by omega)⟩
  · split
    · exact ⟨_, _, rfl, next_two rest (by omega) (by omega)⟩
    · split
      · exact ⟨_, _, rfl, next_three rest (by omega) (by omega) (by omega)⟩
      · exact ⟨_, _, rfl, next_four rest (by omega) (by omega)⟩

end

/-- The encoding of a text is read back character by character. -/
theorem units_utf8 (text : List Char) : units (utf8 text) = text.map some := by
  induction text with
  | nil => rw [utf8, List.flatMap_nil, units, List.map_nil]
  | cons c rest ih =>
    obtain ⟨lead, tail, hbytes, hnext⟩ := next_utf8EncodeChar (utf8 rest) c
    have hcons : utf8 (c :: rest) = lead :: (tail ++ utf8 rest) := by
      rw [utf8, List.flatMap_cons, hbytes]
      rfl
    rw [hcons, units, hnext, ih, List.map_cons]

/-- The bytes of a text are read as that text. -/
theorem decode?_utf8 (text : List Char) : decode? (utf8 text) = some text := by
  rw [decode?, units_utf8]
  induction text with
  | nil => rfl
  | cons c rest ih => simp [List.mapM_cons, ih]

end Records.Text
