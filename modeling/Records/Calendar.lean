import Records.Fault
import Records.Number.Numeral
import Records.Text.Blank

/-!
# Calendar days

Days of the proleptic Gregorian calendar, and the normal form `YYYY-MM-DD` of a day that may be
written in four layouts.  A text of the normal shape is only checked; any other is tried in the
remaining layouts, in which a number may have fewer digits than its field is wide, blanks in front
of it, and, for the year alone, a sign.
-/

set_option autoImplicit false

namespace Records

/-- A year, a month and a day of the month. -/
structure Date where
  year : Int
  month : Nat
  day : Nat
deriving DecidableEq, Repr

namespace Date

/-- Every fourth year has a leap day, but of the full centuries only every fourth. -/
def isLeapYear (year : Int) : Bool :=
  year % 4 = 0 && (year % 100 ≠ 0 || year % 400 = 0)

/-- The number of days of a month; none when there is no such month. -/
def daysInMonth (year : Int) (month : Nat) : Nat :=
  match month with
  | 1 | 3 | 5 | 7 | 8 | 10 | 12 => 31
  | 4 | 6 | 9 | 11 => 30
  | 2 => if isLeapYear year then 29 else 28
  | _ => 0

/-- The first year that a day can have. -/
def firstYear : Int := -262143

/-- The last year that a day can have. -/
def lastYear : Int := 262142

/-- Whether a date names a day. -/
def isDay (d : Date) : Bool :=
  firstYear ≤ d.year && d.year ≤ lastYear && 1 ≤ d.day && d.day ≤ daysInMonth d.year d.month

/-- The text of a year: four digits from 0 to 9999, and a sign before at least four digits
otherwise. -/
def yearText (year : Int) : List Char :=
  if 0 ≤ year ∧ year ≤ 9999 then Numeral.padded 4 year.toNat
  else (if year < 0 then '-' else '+') :: Numeral.padded 4 year.natAbs

/-- The normal form of a date. -/
def text (d : Date) : List Char :=
  yearText d.year ++ '-' :: (Numeral.padded 2 d.month ++ '-' :: Numeral.padded 2 d.day)

/-- A field of a layout. -/
inductive Piece where
  | year
  | month
  | day
  | mark (c : Char)
deriving DecidableEq, Repr

/-- The layouts other than the normal form, in the order in which they are tried. -/
def layouts : List (List Piece) := [
  [.day, .mark '-', .month, .mark '-', .year],
  [.day, .mark '/', .month, .mark '/', .year],
  [.year, .mark '/', .month, .mark '/', .day]
]

/-- Reads a number of at least one and at most `width` digits; with the text after it. -/
def readDigits (width : Nat) (text : List Char) : Option (Nat × List Char) :=
  let digits := (text.take width).takeWhile Char.isDigit
  (Numeral.nat? digits).map fun n => (n, text.drop digits.length)

/-- Reads the digits after a sign, however many. -/
def readAllDigits (text : List Char) : Option (Nat × List Char) := readDigits text.length text

/-- Reads a year: up to four digits, or a sign and any number of digits. -/
def readYear : List Char → Option (Int × List Char)
  | '-' :: rest => (readAllDigits rest).map fun (n, rest) => (-(n : Int), rest)
  | '+' :: rest => (readAllDigits rest).map fun (n, rest) => ((n : Int), rest)
  | text => (readDigits 4 text).map fun (n, rest) => ((n : Int), rest)

/-- Reads the fields of a layout one after another, filling in a date. -/
def readPieces (d : Date) : List Piece → List Char → Option Date
  | [], [] => some d
  | [], _ :: _ => none
  | .year :: pieces, text =>
    match readYear (Text.trimFront text) with
    | some (year, rest) => readPieces { d with year := year } pieces rest
    | none => none
  | .month :: pieces, text =>
    match readDigits 2 (Text.trimFront text) with
    | some (month, rest) => readPieces { d with month := month } pieces rest
    | none => none
  | .day :: pieces, text =>
    match readDigits 2 (Text.trimFront text) with
    | some (day, rest) => readPieces { d with day := day } pieces rest
    | none => none
  | .mark _ :: _, [] => none
  | .mark c :: pieces, c' :: rest => if c = c' then readPieces d pieces rest else none

/-- Reads a day in one layout. -/
def readIn (layout : List Piece) (text : List Char) : Option Date :=
  (readPieces ⟨0, 0, 0⟩ layout text).filter isDay

/-- Reads four digits, a dash, two digits, a dash and two digits, whatever they name. -/
def readNormal? (text : List Char) : Option Date :=
  match text with
  | [y1, y2, y3, y4, '-', m1, m2, '-', d1, d2] =>
    match Numeral.nat? [y1, y2, y3, y4], Numeral.nat? [m1, m2], Numeral.nat? [d1, d2] with
    | some year, some month, some day => some ⟨year, month, day⟩
    | _, _, _ => none
  | _ => none

/-- The normal form of a day, blanks around it aside. -/
def normalize (raw : String) : Except Fault String :=
  let text := Text.trimChars raw.toList
  match readNormal? text with
  | some date =>
    if date.isDay then .ok (String.ofList text) else .error (.invalidDate (String.ofList text))
  | none =>
    match layouts.findSome? fun layout => readIn layout text with
    | some date => .ok (String.ofList date.text)
    | none => .error (.invalidDate (String.ofList text))

end Date

end Records
