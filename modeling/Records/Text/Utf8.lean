/-!
# UTF-8

Bytes are lists of `UInt8`.  Decoding goes unit by unit: `next` takes the longest well-formed
beginning that is one character, or else the longest beginning that could have become one, at least
one byte, as a defect.  A strict reader refuses defects; a lenient one puts the replacement
character in the place of each.
-/

set_option autoImplicit false

namespace Records.Text

/-- The bytes of a text. -/
def utf8 (text : List Char) : List UInt8 := text.flatMap String.utf8EncodeChar

/-- The character that stands for bytes that cannot be read. -/
def replacement : Char := Char.ofNat 0xFFFD

/-- How many continuation bytes a first byte asks for, with the bounds of the first of them. -/
def sequenceShape (lead : UInt8) : Option (Nat × UInt8 × UInt8) :=
  if 0xC2 ≤ lead ∧ lead ≤ 0xDF then some (1, 0x80, 0xBF)
  else if lead = 0xE0 then some (2, 0xA0, 0xBF)
  else if lead = 0xED then some (2, 0x80, 0x9F)
  else if 0xE1 ≤ lead ∧ lead ≤ 0xEF then some (2, 0x80, 0xBF)
  else if lead = 0xF0 then some (3, 0x90, 0xBF)
  else if 0xF1 ≤ lead ∧ lead ≤ 0xF3 then some (3, 0x80, 0xBF)
  else if lead = 0xF4 then some (3, 0x80, 0x8F)
  else none

/-- The payload bits of a first byte that asks for `count` continuation bytes. -/
def leadBits (lead : UInt8) (count : Nat) : Nat := lead.toNat % Nat.pow 2 (6 - count)

/-- Reads continuation bytes: the code point with the bytes left over, or `none` with the bytes left
over when one is missing or out of its bounds. -/
def continuation (low high : UInt8) (value : Nat) : Nat → List UInt8 → Option Nat × List UInt8
  | 0, bytes => (some value, bytes)
  | _ + 1, [] => (none, [])
  | count + 1, b :: rest =>
    if low ≤ b ∧ b ≤ high then continuation 0x80 0xBF (value * 64 + b.toNat % 64) count rest
    else (none, b :: rest)

/-- Reads one character, or `none` for a defect, after the first byte `lead`; with the bytes left
over. -/
def next (lead : UInt8) (rest : List UInt8) : Option Char × List UInt8 :=
  if lead < 0x80 then (some (Char.ofNat lead.toNat), rest)
  else
    match sequenceShape lead with
    | none => (none, rest)
    | some (count, low, high) =>
      let (value, left) := continuation low high (leadBits lead count) count rest
      (value.map Char.ofNat, left)

/-- Continuation bytes are taken from the front. -/
theorem continuation_length_le (low high : UInt8) (value count : Nat) (bytes : List UInt8) :
    (continuation low high value count bytes).2.length ≤ bytes.length := by
  induction count generalizing low high value bytes with
  | zero => simp [continuation]
  | succ count ih =>
    cases bytes with
    | nil => simp [continuation]
    | cons b rest =>
      simp only [continuation]
      split
      · have := ih 0x80 0xBF (value * 64 + b.toNat % 64) rest
        simp only [List.length_cons]
        omega
      · simp

/-- What is left after one character is no longer than what followed its first byte. -/
theorem next_length_le (lead : UInt8) (rest : List UInt8) :
    (next lead rest).2.length ≤ rest.length := by
  unfold next
  split
  · simp
  · split
    · simp
    · exact continuation_length_le _ _ _ _ _

/-- The characters of a byte sequence, `none` in the place of each defect. -/
def units : List UInt8 → List (Option Char)
  | [] => []
  | lead :: rest =>
    have : (next lead rest).2.length < (lead :: rest).length :=
      Nat.lt_succ_of_le (next_length_le lead rest)
    (next lead rest).1 :: units (next lead rest).2
termination_by bytes => bytes.length
decreasing_by exact this

/-- The text of well-formed bytes. -/
def decode? (bytes : List UInt8) : Option (List Char) := (units bytes).mapM id

/-- The text of any bytes, with a replacement character for each defect. -/
def decodeLossy (bytes : List UInt8) : List Char := (units bytes).map (·.getD replacement)

end Records.Text
