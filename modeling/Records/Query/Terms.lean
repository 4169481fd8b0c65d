/-!
# Terms of a query

The small vocabulary that parameters, queries and statements share.
-/

set_option autoImplicit false

namespace Records

/-- How a predicate is joined to those before it. -/
inductive Joiner where
  | and
  | or
deriving DecidableEq, Repr

/-- Which end of a range of days. -/
inductive DateBound where
  | lower
  | upper
deriving DecidableEq, Repr

/-- How the number of related rows is compared. -/
inductive CountComparator where
  | atLeast
  | atMost
  | exactly
deriving DecidableEq, Repr

/-- The direction of an order. -/
inductive SortDirection where
  | ascending
  | descending
deriving DecidableEq, Repr

/-- Which rows of a resource with a trash a query sees. -/
inductive Trashed where
  | without
  | only
deriving DecidableEq, Repr

/-- Whether a number of related rows passes. -/
def CountComparator.holds : CountComparator → Int → Int → Bool
  | .atLeast, actual, expected => expected ≤ actual
  | .atMost, actual, expected => actual ≤ expected
  | .exactly, actual, expected => actual = expected

end Records
