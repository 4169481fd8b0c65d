import Records.Json.Value
import Records.Query.Terms

/-!
# Clauses

A clause is a flat list of predicates, each with the joiner that precedes it.  `and` binds tighter
than `or`, so a clause is a disjunction of runs: a new run begins at every `or` but the first
entry's, whose joiner has no effect.  Predicates nest through groups and through tests on related
rows.
-/

set_option autoImplicit false

namespace Records

/-- What a column is tested for.  Equality with null asks whether the column is null. -/
inductive Test where
  | equals (value : Json)
  | differs (value : Json)
  | among (values : List Json)
  | notAmong (values : List Json)
deriving Repr

/-- A condition on a row. -/
inductive Predicate where
  | condition (column : String) (test : Test)
  /-- The day of a column is not before, or not after, a given day. -/
  | date (column : String) (bound : DateBound) (day : String)
  /-- The text of a column contains a term, whatever the case. -/
  | contains (column : String) (term : String)
  /-- Some related row, or with `negated` none, satisfies a clause. -/
  | related (relation : String) (negated : Bool) (clause : List (Joiner × Predicate))
  | count (relation : String) (comparator : CountComparator) (count : Int)
  | group (clause : List (Joiner × Predicate))
deriving Repr

/-- Predicates, each with the joiner that precedes it. -/
abbrev Clause := List (Joiner × Predicate)

/-- The test for a value: membership for a list, equality otherwise. -/
def Test.ofValue (negated : Bool) : Json → Test
  | .arr items => if negated then .notAmong items else .among items
  | value => if negated then .differs value else .equals value

/-- Appends a clause as one group, unless it is empty. -/
def Clause.addGroup (clause : Clause) (joiner : Joiner) (other : Clause) : Clause :=
  if other.isEmpty then clause else clause ++ [(joiner, .group other)]

end Records
