import Records.Json.Value
import Records.Number.Shortest
import Records.Text.Hex

/-!
# Compact JSON text

The text of a value without spaces: fields in their order, every character raw but the quote, the
backslash and the control characters below `U+0020`.
-/

set_option autoImplicit false

namespace Records.Json

/-- How one character stands inside a string. -/
def escapeChar (c : Char) : List Char :=
  if c = '"' then ['\\', '"']
  else if c = '\\' then ['\\', '\\']
  else if c.toNat < 32 then
    match c.toNat with
    | 8 => ['\\', 'b']
    | 9 => ['\\', 't']
    | 10 => ['\\', 'n']
    | 12 => ['\\', 'f']
    | 13 => ['\\', 'r']
    | n => ['\\', 'u', '0', '0', Text.hexDigit (n / 16), Text.hexDigit (n % 16)]
  else [c]

/-- The text of a string, quotes included. -/
def printString (s : List Char) : List Char := '"' :: (s.flatMap escapeChar ++ ['"'])

mutual

/-- The compact text of a value. -/
def print : Json → List Char
  | .null => ['n', 'u', 'l', 'l']
  | .bool true => ['t', 'r', 'u', 'e']
  | .bool false => ['f', 'a', 'l', 's', 'e']
  | .int n => Numeral.ofInt n
  | .double d => d.text
  | .str s => printString s.toList
  | .arr [] => ['[', ']']
  | .arr (item :: items) => '[' :: (print item ++ printItems items)
  | .obj [] => ['{', '}']
  | .obj ((name, value) :: fields) =>
    '{' :: (printString name.toList ++ ':' :: (print value ++ printFields fields))

/-- The text after the first item of an array. -/
def printItems : List Json → List Char
  | [] => [']']
  | item :: items => ',' :: (print item ++ printItems items)

/-- The text after the first field of an object. -/
def printFields : List (String × Json) → List Char
  | [] => ['}']
  | (name, value) :: fields =>
    ',' :: (printString name.toList ++ ':' :: (print value ++ printFields fields))

end

/-- The compact text of a value as a string. -/
def compact (value : Json) : String := String.ofList (print value)

end Records.Json
