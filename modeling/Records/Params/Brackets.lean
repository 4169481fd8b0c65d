import Records.Fault
import Records.Json.Written
import Records.Text.Blank
import Records.Text.Split

/-!
# Bracket notation

A query such as `filters[name]=x` spells a nested object: each bracket holds the key of one level,
and an empty bracket at the end appends to a list.
-/

set_option autoImplicit false

namespace Records.Brackets

/-- The contents of brackets that follow one another to the end of a text. -/
def bracketed? : List Char → Option (List (List Char))
  | [] => some []
  | '[' :: rest => open? [] rest
  | _ :: _ => none
where
  /-- The contents of an open bracket, of which `seen` is already read, and of those after it. -/
  open? (seen : List Char) : List Char → Option (List (List Char))
    | [] => none
    | ']' :: [] => some [seen.reverse]
    | ']' :: '[' :: rest => (open? [] rest).map (seen.reverse :: ·)
    | ']' :: _ => none
    | c :: rest => open? (c :: seen) rest

/-- Splits a key into the text before its first bracket and the contents of its brackets. -/
def split (key : String) : Except Fault (String × List String) :=
  let chars := key.toList
  let head := chars.takeWhile (· ≠ '[')
  match bracketed? (chars.drop head.length) with
  | some path => .ok (String.ofList head, path.map String.ofList)
  | none => .error (.invalid (.malformedParameterKey key))

/-- Puts a value under a key and the path below it. -/
def insert (fields : Fields) (key : String) : List String → Json → Except Fault Fields
  | [], value => .ok (Fields.put fields key value)
  | step :: rest, value =>
    if step.isEmpty then
      if rest.isEmpty then
        match Fields.get? fields key with
        | none => .ok (Fields.put fields key (.arr [value]))
        | some (.arr items) => .ok (Fields.put fields key (.arr (items ++ [value])))
        | some _ => .error (.invalid (.listAndScalar key))
      else .error (.invalid (.nestedList key))
    else
      match Fields.get? fields key with
      | none => (insert [] step rest value).map fun child => Fields.put fields key (.obj child)
      | some (.obj child) =>
        (insert child step rest value).map fun child => Fields.put fields key (.obj child)
      | some _ => .error (.invalid (.objectAndScalar key))

/-- Whether a parameter may be given whole as JSON. -/
def mayBeJson (head : String) : Bool := head = "filters" || head = "counts" || head = "sort"

/-- Whether a text looks like a JSON object. -/
def looksLikeObject (text : String) : Bool := (Text.trimFront text.toList).head? = some '{'

/-- The value of a pair: JSON where a whole parameter looks like it, and the text itself
otherwise. -/
def pairValue (head : String) (path : List String) (text : String) : Except Fault Json :=
  if path.isEmpty && mayBeJson head && looksLikeObject text then
    match Json.parse? text with
    | some value => .ok value
    | none => .error (.invalid (.notJson head))
  else .ok (.str text)

/-- Adds one pair. -/
def addPair (fields : Fields) (pair : String × String) : Except Fault Fields := do
  let (head, path) ← split pair.1
  let value ← pairValue head path pair.2
  insert fields head path value

/-- The object that a list of pairs spells. -/
def ofPairs (pairs : List (String × String)) : Except Fault Json :=
  (pairs.foldlM addPair []).map .obj

end Records.Brackets
