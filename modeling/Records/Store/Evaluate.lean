import Records.Query.Clause
import Records.Store.Basic
import Records.Text.Lowercase
import Records.Text.Split

/-!
# Evaluating clauses on rows

Whether a row satisfies a clause.  A test of a missing or null column fails, but for the tests
against null and against the empty list.  A run is left at its first predicate that fails; a
relation that does not exist is a fault when, and only when, evaluation reaches it.
-/

set_option autoImplicit false

namespace Records

/-- Whether a column passes a test. -/
def Test.passes (value : Option Json) : Test → Bool
  | .equals .null => value.isNone
  | .differs .null => value.isSome
  | .equals expected => value.any fun v => v.agrees expected
  | .differs expected => value.any fun v => !v.agrees expected
  | .among values => value.any fun v => values.any fun expected => v.agrees expected
  | .notAmong values =>
    values.isEmpty || value.any fun v => !values.any fun expected => v.agrees expected

/-- The beginning of a text that takes exactly a number of bytes. -/
def firstBytes? : Nat → List Char → Option (List Char)
  | 0, _ => some []
  | _ + 1, [] => none
  | bytes + 1, c :: rest =>
    if c.utf8Size ≤ bytes + 1 then (firstBytes? (bytes + 1 - c.utf8Size) rest).map (c :: ·)
    else none

/-- The day of a text: its first ten bytes, or all of it when these end within a character or there
are fewer. -/
def dayOf (text : String) : String :=
  match firstBytes? 10 text.toList with
  | some chars => String.ofList chars
  | none => text

/-- Whether a day is within a bound; days of the normal form compare as texts. -/
def DateBound.admits (bound : DateBound) (limit day : String) : Bool :=
  match bound with
  | .lower => (compare limit day).isLE
  | .upper => (compare day limit).isLE

/-- Whether a text contains a term, both in lower case. -/
def containsTerm (term text : String) : Bool :=
  Text.occursIn (Text.lowerChars term.toList) (Text.lowerChars text.toList)

namespace Store

mutual

/-- Whether a row satisfies a predicate. -/
def satisfiesPredicate (model : Model) (store : Store) (r : Resource) (row : Row) :
    Predicate → Except Fault Bool
  | .condition column test => .ok (test.passes (Row.present? row column))
  | .date column bound limit =>
    .ok (((Fields.get? row column).bind Json.text?).any fun text => bound.admits limit (dayOf text))
  | .contains column term =>
    .ok (((Fields.get? row column).bind Json.text?).any fun text => containsTerm term text)
  | .related name negated clause => do
    let (relation, target) ← model.related r name
    let found ← (store.relatedRows relation target row).anyM fun child =>
      satisfies model store target child clause
    return found != negated
  | .count name comparator count => do
    let (relation, target) ← model.related r name
    return comparator.holds (store.relatedRows relation target row).length count
  | .group clause => satisfies model store r row clause

/-- Whether a row satisfies a clause. -/
def satisfies (model : Model) (store : Store) (r : Resource) (row : Row) :
    List (Joiner × Predicate) → Except Fault Bool
  | [] => .ok true
  | (_, predicate) :: rest => do
    let holds ← satisfiesPredicate model store r row predicate
    satisfiesFrom model store r row false holds rest

/-- Goes on with a clause: `reached` says whether a run before the current one held, `run` whether
the current one holds so far. -/
def satisfiesFrom (model : Model) (store : Store) (r : Resource) (row : Row) (reached run : Bool) :
    List (Joiner × Predicate) → Except Fault Bool
  | [] => .ok (reached || run)
  | (joiner, predicate) :: rest =>
    let reached' := if joiner = .or then reached || run else reached
    let run' := if joiner = .or then true else run
    if run' then do
      let holds ← satisfiesPredicate model store r row predicate
      satisfiesFrom model store r row reached' holds rest
    else satisfiesFrom model store r row reached' false rest

end

end Store

end Records
