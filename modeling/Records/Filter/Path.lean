import Records.Fault
import Records.Text.Split

/-!
# Filter keys

A filter key is a path of relations that ends in a column, its segments parted by dots.  A segment
may begin with any run of the marks `or:` and `not:`.
-/

set_option autoImplicit false

namespace Records

/-- A segment of a filter key. -/
structure Segment where
  name : String
  /-- Whether the mark `not:` stands in front. -/
  negated : Bool
  /-- Whether the mark `or:` stands in front. -/
  disjoin : Bool
deriving DecidableEq, Repr

namespace Segment

/-- Takes the marks off the front of a text; what is left is the name. -/
def ofChars (negated disjoin : Bool) : List Char → Segment
  | 'o' :: 'r' :: ':' :: rest => ofChars negated true rest
  | 'n' :: 'o' :: 't' :: ':' :: rest => ofChars true disjoin rest
  | name => ⟨String.ofList name, negated, disjoin⟩

/-- Reads a segment. -/
def parse (raw : String) : Segment := ofChars false false raw.toList

end Segment

/-- A path of relations that ends in a column. -/
structure FilterPath where
  relations : List Segment
  column : Segment
deriving DecidableEq, Repr

namespace FilterPath

/-- How many relations a key may traverse. -/
def maxRelations : Nat := 4

/-- Reads a key.  A part without a name comes before too many parts. -/
def parse (raw : String) : Except Fault FilterPath :=
  let parts := (Text.splitAt '.' raw.toList).map (Segment.ofChars false false)
  if parts.any fun part => part.name.isEmpty then
    .error (.invalid (.malformedFilterKey raw))
  else
    match parts.getLast? with
    | none => .error (.invalid (.malformedFilterKey raw))
    | some column =>
      if maxRelations < parts.dropLast.length then
        .error (.invalid (.deepFilterKey raw maxRelations))
      else .ok ⟨parts.dropLast, column⟩

end FilterPath

end Records
