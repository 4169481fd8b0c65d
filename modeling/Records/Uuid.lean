import Records.Text.Hex
import Records.Text.Lowercase
import Records.Text.Split

/-!
# Universally unique identifiers

An identifier is thirty-two hexadecimal digits.  It may be written without hyphens, in five groups,
in groups between braces, or in groups after `urn:uuid:`; letters are in either case throughout.
Its normal form is the five groups in lower case.
-/

set_option autoImplicit false

namespace Records.Uuid

/-- The value of a hexadecimal digit. -/
def digit? (c : Char) : Option Nat := Text.hexValue? c.toNat

/-- The digits of thirty-two characters. -/
def plain? (text : List Char) : Option (List Nat) :=
  if text.length = 32 then text.mapM digit? else none

/-- Takes the hyphens out of five groups of 8, 4, 4, 4 and 12 characters. -/
def dropHyphens? (text : List Char) : Option (List Char) :=
  let groups := Text.splitAt '-' text
  if groups.map List.length = [8, 4, 4, 4, 12] then some groups.flatten else none

/-- The digits of five groups. -/
def grouped? (text : List Char) : Option (List Nat) := (dropHyphens? text).bind plain?

/-- The text between braces. -/
def braced? : List Char → Option (List Char)
  | '\x7b' :: rest => if rest.getLast? = some '\x7d' then some rest.dropLast else none
  | _ => none

/-- The text after the name of the namespace.  The `uuid` library, by which keys are read, takes
that name in any case, `URN:UUID:` too: names of this kind are equal whatever the case of their
letters. -/
def afterNamespace? (text : List Char) : Option (List Char) :=
  if (text.take 9).map Text.lowerAscii = "urn:uuid:".toList then some (text.drop 9) else none

/-- The digits of an identifier in any of its spellings. -/
def digits? (text : List Char) : Option (List Nat) :=
  match plain? text with
  | some digits => some digits
  | none =>
    match grouped? text with
    | some digits => some digits
    | none =>
      match (braced? text).bind grouped? with
      | some digits => some digits
      | none => (afterNamespace? text).bind grouped?

/-- The normal form of an identifier. -/
def text (digits : List Nat) : List Char :=
  let chars := digits.map Text.hexDigit
  chars.take 8 ++ '-' :: ((chars.drop 8).take 4 ++ '-' :: ((chars.drop 12).take 4 ++ '-' ::
    ((chars.drop 16).take 4 ++ '-' :: chars.drop 20)))

/-- The normal form of an identifier that may be written in any spelling. -/
def normalize? (raw : String) : Option String :=
  (digits? raw.toList).map fun digits => String.ofList (text digits)

end Records.Uuid
