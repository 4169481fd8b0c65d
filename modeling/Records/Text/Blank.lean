/-!
# Blanks

The characters with the `White_Space` property, and trimming of text at both ends.
-/

set_option autoImplicit false

namespace Records.Text

/-- The characters with the `White_Space` property. -/
def isBlank (c : Char) : Bool :=
  let n := c.toNat
  (9 ≤ n && n ≤ 13) || n = 0x20 || n = 0x85 || n = 0xA0 || n = 0x1680
    || (0x2000 ≤ n && n ≤ 0x200A) || n = 0x2028 || n = 0x2029 || n = 0x202F || n = 0x205F
    || n = 0x3000

/-- Drops the blanks in front. -/
def trimFront (text : List Char) : List Char := text.dropWhile isBlank

/-- Drops the blanks at the end. -/
def trimBack (text : List Char) : List Char := (text.reverse.dropWhile isBlank).reverse

/-- Drops the blanks at both ends. -/
def trimChars (text : List Char) : List Char := trimBack (trimFront text)

/-- Drops the blanks at both ends of a string. -/
def trim (text : String) : String := String.ofList (trimChars text.toList)

end Records.Text
