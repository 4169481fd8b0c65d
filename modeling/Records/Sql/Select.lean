import Records.Sql.Condition

/-!
# Select statements

The statements that a query turns into: the rows of one page, their number, and the first row.
-/

set_option autoImplicit false

namespace Records.Sql

/-- A relation shown with each row, as a subselect. -/
structure Embedded where
  name : String
  /-- Whether the related rows are shown as a list, or the first of them alone. -/
  many : Bool
  scope : Scope
deriving DecidableEq, Repr

/-- How many rows of the answer are wanted. -/
inductive Extent where
  /-- Some rows after others; both numbers are bound. -/
  | window (limit offset : Nat)
  | first
deriving DecidableEq, Repr

/-- A statement that selects rows of one table. -/
structure Selection where
  table : TableRef
  /-- The columns shown; none stands for all. -/
  columns : List String
  embedded : List Embedded
  restriction : Restriction
  order : List (String × SortDirection)
  extent : Extent
deriving Repr

/-- A statement that counts rows of one table. -/
structure Tally where
  table : TableRef
  restriction : Restriction
deriving Repr

/-- The relations shown with each row. -/
def embeddedOf (model : Model) (r : Resource) : List String → Binder (List Embedded)
  | [] => return []
  | name :: rest => do
    let (relation, target) ← liftFault (model.related r name)
    let child ← freshAlias
    let rest ← embeddedOf model r rest
    return ⟨name, relation.isMany, scopeOf relation target .main child⟩ :: rest

/-- A number that a signed 64-bit integer can hold. -/
def int64OrFault (why : Invalid) (n : Nat) : Except Fault Int :=
  if Numeral.isInt64 n then .ok n else .error (.invalid why)

/-- A statement with its bound values. -/
structure Bound (α : Type) where
  statement : α
  values : List BindValue
deriving Repr

/-- The selection of one page, and the statement that counts all rows. -/
def pageOf (model : Model) (query : Query) (paging : Paging) :
    Except Fault (Bound Selection × Bound Tally) := do
  let r ← model.requireResource query.resource
  let (restriction, counted) ← (restrictionOf model r query).run {}
  let (embedded, shown) ← (embeddedOf model r query.eager).run counted
  let perPage ← int64OrFault .perPageTooLarge paging.perPage
  let skip ← int64OrFault .pageTooLarge paging.offset
  let ((limit, offset), last) ← (do
    let limit ← bindValue (.int perPage)
    let offset ← bindValue (.int skip)
    return (limit, offset) : Binder (Nat × Nat)).run shown
  let selection : Selection := {
    table := tableOf r
    columns := query.columns
    embedded := embedded
    restriction := restriction
    order := query.order
    extent := .window limit offset
  }
  return (⟨selection, last.values⟩, ⟨⟨tableOf r, restriction⟩, counted.values⟩)

/-- The selection of the first row. -/
def firstOf (model : Model) (query : Query) : Except Fault (Bound Selection) := do
  let r ← model.requireResource query.resource
  let (restriction, counted) ← (restrictionOf model r query).run {}
  let (embedded, shown) ← (embeddedOf model r query.eager).run counted
  let selection : Selection := {
    table := tableOf r
    columns := query.columns
    embedded := embedded
    restriction := restriction
    order := query.order
    extent := .first
  }
  return ⟨selection, shown.values⟩

end Records.Sql
