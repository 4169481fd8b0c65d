import Records.Text.Hex
import Records.Text.Split
import Records.Text.Utf8

/-!
# Percent-encoded text

A `%` followed by two hexadecimal digits stands for one byte; any other `%` stands for itself.
A path segment is decoded strictly, a form-encoded query leniently, with `+` for a space.
-/

set_option autoImplicit false

namespace Records.Text

/-- The byte that two hexadecimal digits stand for. -/
def hexPair? (high low : UInt8) : Option UInt8 :=
  match hexValue? high.toNat, hexValue? low.toNat with
  | some h, some l => some (UInt8.ofNat (16 * h + l))
  | _, _ => none

/-- Replaces each encoded byte by the byte itself. -/
def percentDecode : List UInt8 → List UInt8
  | [] => []
  | b :: rest =>
    if b = 37 then
      match rest with
      | high :: low :: rest' =>
        match hexPair? high low with
        | some byte => byte :: percentDecode rest'
        | none => b :: percentDecode (high :: low :: rest')
      | rest => b :: percentDecode rest
    else b :: percentDecode rest

/-- The text of a path segment; `none` when its bytes are not UTF-8. -/
def decodeSegment? (segment : List Char) : Option String :=
  (decode? (percentDecode (utf8 segment))).map String.ofList

/-- The text of a form-encoded name or value. -/
def decodeForm (text : List Char) : String :=
  let bytes := (utf8 text).map fun b => if b = 43 then 32 else b
  String.ofList (decodeLossy (percentDecode bytes))

/-- The name and value of one part of a query; a part without `=` has the empty value. -/
def formPair (part : List Char) : String × String :=
  match cutFirst '=' part with
  | some (name, value) => (decodeForm name, decodeForm value)
  | none => (decodeForm part, "")

/-- The pairs of a form-encoded query, in order; empty parts are skipped. -/
def formPairs (query : List Char) : List (String × String) :=
  ((splitAt '&' query).filter fun part => !part.isEmpty).map formPair

end Records.Text
