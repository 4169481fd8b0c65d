import Records.Json.Value
import Records.Text.Hex

/-!
# JSON as it is written

A text is first read as a tree that keeps what a value forgets: number literals, every field of an
object even when a name is repeated, and strings whose escapes name no text.  Reading never fails:
where the text stops being JSON the tree ends with a `broken` leaf, and nothing after it is kept.
So a reader of the tree meets the first defect exactly where a reader of the text would.

A value may be embedded as a text of its own: an object whose first name is the mark of an embedded
text is the value that the text spells.
-/

set_option autoImplicit false

namespace Records

/-- A JSON text as a tree. -/
inductive Written where
  | null
  | bool (b : Bool)
  | number (literal : Literal)
  /-- A string; `none` when an escape is half of a surrogate pair. -/
  | str (s : Option String)
  | list (items : List Written)
  | record (fields : List (Option String × Written))
  /-- The text is no JSON from here on. -/
  | broken
deriving Repr, Inhabited

namespace Written

/-- A step of reading: what was read, and the text after it unless that is broken. -/
abbrev Step (α : Type) := α × Option (List Char)

/-- The blanks between tokens. -/
def isSpace (c : Char) : Bool := c = ' ' || c = '\t' || c = '\n' || c = '\r'

/-- Drops the blanks in front. -/
def skipSpace (text : List Char) : List Char := text.dropWhile isSpace

/-- The code unit of four hexadecimal digits. -/
def codeUnit? (a b c d : Char) : Option Nat :=
  match digit? a, digit? b, digit? c, digit? d with
  | some a, some b, some c, some d => some (((a * 16 + b) * 16 + c) * 16 + d)
  | _, _, _, _ => none
where
  /-- The value of a hexadecimal digit. -/
  digit? (c : Char) : Option Nat := Text.hexValue? c.toNat

/-- The character of a one-letter escape. -/
def shortEscape? (c : Char) : Option Char :=
  match c with
  | '"' => some '"'
  | '\\' => some '\\'
  | '/' => some '/'
  | 'b' => some (Char.ofNat 8)
  | 'f' => some (Char.ofNat 12)
  | 'n' => some '\n'
  | 'r' => some '\r'
  | 't' => some '\t'
  | _ => none

/-- The code units of a string after its opening quote, an unescaped character standing for itself;
and the text after the closing quote. -/
def stringUnits : List Char → Option (List (Char ⊕ Nat) × List Char)
  | [] => none
  | '"' :: rest => some ([], rest)
  | '\\' :: 'u' :: a :: b :: c :: d :: rest =>
    match codeUnit? a b c d, stringUnits rest with
    | some unit, some (units, rest') => some (.inr unit :: units, rest')
    | _, _ => none
  | '\\' :: c :: rest =>
    match shortEscape? c, stringUnits rest with
    | some e, some (units, rest') => some (.inl e :: units, rest')
    | _, _ => none
  | c :: rest =>
    if c.toNat < 32 ∨ c = '\\' then none
    else (stringUnits rest).map fun (units, rest') => (.inl c :: units, rest')

/-- The text of code units: two halves of a surrogate pair make one character, and a half on its own
makes no text. -/
def unitsText? : List (Char ⊕ Nat) → Option (List Char)
  | [] => some []
  | .inl c :: rest => (unitsText? rest).map (c :: ·)
  | .inr high :: .inr low :: rest =>
    if 0xD800 ≤ high ∧ high < 0xDC00 ∧ 0xDC00 ≤ low ∧ low < 0xE000 then
      (unitsText? rest).map
        (Char.ofNat (0x10000 + (high - 0xD800) * 0x400 + (low - 0xDC00)) :: ·)
    else if 0xD800 ≤ high ∧ high < 0xE000 then none
    else (unitsText? (.inr low :: rest)).map (Char.ofNat high :: ·)
  | .inr unit :: rest =>
    if 0xD800 ≤ unit ∧ unit < 0xE000 then none else (unitsText? rest).map (Char.ofNat unit :: ·)

/-- Reads a string after its opening quote. -/
def readString (text : List Char) : Option (Option String × List Char) :=
  (stringUnits text).map fun (units, rest) => ((unitsText? units).map String.ofList, rest)

/-- The digits in front, and the text after them. -/
def takeDigits (text : List Char) : List Char × List Char :=
  (text.takeWhile Char.isDigit, text.dropWhile Char.isDigit)

/-- Reads an optional fraction. -/
def readFraction : List Char → Option (List Char × List Char)
  | '.' :: rest =>
    let (digits, rest') := takeDigits rest
    if digits.isEmpty then none else some (digits, rest')
  | text => some ([], text)

/-- Reads an exponent after its mark. -/
def readExponentDigits (negative : Bool) (text : List Char) : Option (Option Int × List Char) :=
  let (digits, rest) := takeDigits text
  (Numeral.nat? digits).map fun n => (some (if negative then -(n : Int) else n), rest)

/-- Reads an optional exponent. -/
def readExponent : List Char → Option (Option Int × List Char)
  | 'e' :: '+' :: rest | 'E' :: '+' :: rest => readExponentDigits false rest
  | 'e' :: '-' :: rest | 'E' :: '-' :: rest => readExponentDigits true rest
  | 'e' :: rest | 'E' :: rest => readExponentDigits false rest
  | text => some (none, text)

/-- Reads a number after its sign.  A whole part of several digits does not begin with a zero. -/
def readUnsigned (negative : Bool) (text : List Char) : Step Written :=
  let (whole, rest) := takeDigits text
  if whole.isEmpty ∨ (whole.head? = some '0' ∧ 1 < whole.length) then (.broken, none)
  else
    match readFraction rest with
    | none => (.broken, none)
    | some (fraction, rest) =>
      match readExponent rest with
      | none => (.broken, none)
      | some (exponent, rest) => (.number ⟨negative, whole, fraction, exponent⟩, some rest)

mutual

/-- Reads a value at the front of a text.  The fuel is spent one unit a call. -/
def readValue : Nat → List Char → Step Written
  | 0, _ => (.broken, none)
  | fuel + 1, text =>
    match skipSpace text with
    | 'n' :: 'u' :: 'l' :: 'l' :: rest => (.null, some rest)
    | 't' :: 'r' :: 'u' :: 'e' :: rest => (.bool true, some rest)
    | 'f' :: 'a' :: 'l' :: 's' :: 'e' :: rest => (.bool false, some rest)
    | '"' :: rest =>
      match readString rest with
      | some (s, rest) => (.str s, some rest)
      | none => (.broken, none)
    | '-' :: rest => readUnsigned true rest
    | '[' :: rest =>
      match skipSpace rest with
      | ']' :: rest => (.list [], some rest)
      | rest =>
        let (items, after) := readItems fuel rest
        (.list items, after)
    | '{' :: rest =>
      match skipSpace rest with
      | '}' :: rest => (.record [], some rest)
      | rest =>
        let (fields, after) := readFields fuel rest
        (.record fields, after)
    | text => readUnsigned false text

/-- Reads the items of an array up to its closing bracket. -/
def readItems : Nat → List Char → Step (List Written)
  | 0, _ => ([.broken], none)
  | fuel + 1, text =>
    match readValue fuel text with
    | (item, none) => ([item], none)
    | (item, some rest) =>
      match skipSpace rest with
      | ']' :: rest => ([item], some rest)
      | ',' :: rest =>
        let (items, after) := readItems fuel rest
        (item :: items, after)
      | _ => ([item, .broken], none)

/-- Reads the fields of an object up to its closing brace. -/
def readFields : Nat → List Char → Step (List (Option String × Written))
  | 0, _ => ([(none, .broken)], none)
  | fuel + 1, text =>
    match skipSpace text with
    | '"' :: rest =>
      match readString rest with
      | none => ([(none, .broken)], none)
      | some (name, rest) =>
        match skipSpace rest with
        | ':' :: rest =>
          match readValue fuel rest with
          | (value, none) => ([(name, value)], none)
          | (value, some rest) =>
            match skipSpace rest with
            | '}' :: rest => ([(name, value)], some rest)
            | ',' :: rest =>
              let (fields, after) := readFields fuel rest
              ((name, value) :: fields, after)
            | _ => ([(name, value), (none, .broken)], none)
        | _ => ([(name, .broken)], none)
    | _ => ([(none, .broken)], none)

end

/-- A text read as a tree, with whether the text ends after it. -/
structure Reading where
  /-- The tree. -/
  tree : Written
  /-- Whether only blanks follow the tree. -/
  ends : Bool

/-- Reads a text as a tree. -/
def read (text : String) : Reading :=
  let chars := text.toList
  match readValue (2 * chars.length + 2) chars with
  | (tree, none) => ⟨tree, false⟩
  | (tree, some rest) => ⟨tree, (skipSpace rest).isEmpty⟩

mutual

/-- Whether a tree has no broken leaf. -/
def whole : Written → Bool
  | .broken => false
  | .list items => wholeItems items
  | .record fields => wholeFields fields
  | _ => true

/-- Whether no item has a broken leaf. -/
def wholeItems : List Written → Bool
  | [] => true
  | item :: items => whole item && wholeItems items

/-- Whether no field has a broken leaf. -/
def wholeFields : List (Option String × Written) → Bool
  | [] => true
  | (_, value) :: fields => whole value && wholeFields fields

end

/-- How many arrays and objects may stand inside one another. -/
def depthLimit : Nat := 127

/-- What is wrong with a tree that has no value. -/
inductive Defect where
  /-- The text is no JSON, nests too deeply, or holds a string or a number that names none. -/
  | malformed
  /-- A value stands where one of another kind is needed. -/
  | misfit
deriving DecidableEq, Repr

/-- What is wrong with a tree that stands where a value of another kind is needed. -/
def misplaced : Written → Defect
  | .broken => .malformed
  | .str none => .malformed
  | .number literal => if literal.value?.isSome then .misfit else .malformed
  | _ => .misfit

/-- The text of a tree that has to be a string. -/
def text : Written → Except Defect String
  | .str (some s) => .ok s
  | tree => .error (misplaced tree)

/-- The number of a literal, which has to be finite. -/
def finite (literal : Literal) : Except Defect Json :=
  match literal.value? with
  | some n => .ok (Json.ofNumeric n)
  | none => .error .malformed

/-- The name that marks an embedded text: an object with this name in front stands for the value
that the text beside the name spells, and has no other field. -/
def embeddedName : String := "$serde_json::private::RawValue"

/-- The tree beside the mark of an embedded text, with the fields after it. -/
def embedded? : List (Option String × Written) →
    Option (Written × List (Option String × Written))
  | (some name, tree) :: rest => if name = embeddedName then some (tree, rest) else none
  | _ => none

/-- How embedded texts are read. -/
abbrev Embedding := String → Except Defect Json

/-- Reads embedded texts as whole texts.  One without a value is a misfit, whatever is wrong
with it. -/
def embeddingOf (reader : String → Except Defect Json) : Embedding :=
  fun inner => (reader inner).mapError fun _ => .misfit

/-- The value of an embedded text. -/
def embeddedValue (embedding : Embedding) (tree : Written)
    (rest : List (Option String × Written)) : Except Defect Json := do
  let value ← embedding (← text tree)
  if rest.isEmpty then return value else throw .malformed

mutual

/-- The value of a tree in which at most `depth` arrays and objects stand inside one another, or
what is wrong first.  Without an embedding no name is a mark. -/
def value (embedding : Option Embedding) (depth : Nat) : Written → Except Defect Json
  | .null => .ok .null
  | .bool b => .ok (.bool b)
  | .number literal => finite literal
  | .str s => (text (.str s)).map .str
  | .list items =>
    match depth with
    | 0 => .error .malformed
    | depth + 1 => (values embedding depth items).map .arr
  | .record fields =>
    match depth with
    | 0 => .error .malformed
    | depth + 1 =>
      match embedding, embedded? fields with
      | some embedding, some (tree, rest) => embeddedValue embedding tree rest
      | _, _ => (fieldValues embedding depth fields).map fun fields => .obj (Fields.ofWritten fields)
  | .broken => .error .malformed

/-- The values of the items of an array. -/
def values (embedding : Option Embedding) (depth : Nat) :
    List Written → Except Defect (List Json)
  | [] => .ok []
  | item :: items => do
    let first ← value embedding depth item
    let rest ← values embedding depth items
    return first :: rest

/-- The fields of an object, as they are written. -/
def fieldValues (embedding : Option Embedding) (depth : Nat) :
    List (Option String × Written) → Except Defect (List (String × Json))
  | [] => .ok []
  | (none, _) :: _ => .error .malformed
  | (some name, tree) :: fields => do
    let first ← value embedding depth tree
    let rest ← fieldValues embedding depth fields
    return (name, first) :: rest

end

/-- The value of a text that is one JSON value and nothing else.  The fuel is spent one unit for
each text inside another; an embedded text is shorter than the text around it, so the length of a
text is enough for those inside it. -/
def ofText : Nat → String → Except Defect Json
  | 0, _ => .error .malformed
  | fuel + 1, text => do
    let reading := read text
    let value ← reading.tree.value (some (embeddingOf (ofText fuel))) depthLimit
    if reading.ends then return value else throw .malformed

/-- How the texts embedded in a text are read. -/
def embeddingIn (text : String) : Embedding := embeddingOf (ofText text.length)

end Written

/-- The value that a text begins with, whatever follows it, or what is wrong with it. -/
def Json.readFront (text : String) : Except Written.Defect Json :=
  (Written.read text).tree.value (some (Written.embeddingIn text)) Written.depthLimit

/-- The value of a text that is one JSON value and nothing else. -/
def Json.parse? (text : String) : Option Json := (Written.ofText (text.length + 1) text).toOption

end Records
