import Records.Number.Numeral
import Records.Query.Clause

/-!
# Queries and pages

A query names a resource and says which of its rows are wanted, in which order, and what of each row
is shown.  A page is a part of the answer together with its place in the whole.
-/

set_option autoImplicit false

namespace Records

/-- A query for the rows of one resource. -/
structure Query where
  resource : String
  /-- The columns shown; none stands for all. -/
  columns : List String := []
  clause : Clause := []
  trashed : Trashed := .without
  /-- The relations whose rows are shown with each row. -/
  eager : List String := []
  order : List (String × SortDirection) := []
deriving Repr

/-- Which page of an answer. -/
structure Paging where
  page : Nat
  perPage : Nat
deriving DecidableEq, Repr

/-- The number of rows before a page, no more than the greatest 64-bit integer. -/
def Paging.offset (paging : Paging) : Nat :=
  min ((paging.page - 1) * paging.perPage) Numeral.greatestNat64

/-- A part of an answer. -/
structure Page (α : Type) where
  items : List α
  /-- How many rows the whole answer has. -/
  total : Nat
  currentPage : Nat
  perPage : Nat
  lastPage : Nat
deriving DecidableEq, Repr

/-- The number of the last page: the pages it takes for all rows, at least one. -/
def Paging.lastPage (paging : Paging) (total : Nat) : Nat :=
  let size := max paging.perPage 1
  max ((total + size - 1) / size) 1

/-- The page of some rows out of a number of rows. -/
def Page.of {α : Type} (items : List α) (total : Nat) (paging : Paging) : Page α :=
  ⟨items, total, paging.page, paging.perPage, paging.lastPage total⟩

end Records
