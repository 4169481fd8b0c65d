import Records.Model
import Records.Query.Select
import Records.Sql.Bind

/-!
# The condition of a statement

A clause over the model becomes a condition over tables: columns are qualified by the alias of their
table, related rows by a select of their own, and every value is bound to a placeholder.
Placeholders and aliases are numbered in the order in which the statement shows them.
-/

set_option autoImplicit false

namespace Records.Sql

/-- A name by which a statement refers to a table. -/
inductive Alias where
  | main
  | nested (number : Nat)
deriving DecidableEq, Repr

/-- A placeholder, with the type to which its value is cast. -/
structure Placeholder where
  number : Nat
  cast : Option String
deriving DecidableEq, Repr

/-- A column of the table that an alias stands for. -/
structure ColumnRef where
  owner : Alias
  column : String
deriving DecidableEq, Repr

/-- A table. -/
structure TableRef where
  schema : String
  table : String
deriving DecidableEq, Repr

/-- The related rows of a row: those of a table whose foreign key equals the local key, trashed rows
aside. -/
structure Scope where
  table : TableRef
  /-- The alias of the related rows. -/
  child : Alias
  /-- The alias of the row that they are related to. -/
  parent : Alias
  foreignKey : String
  localKey : String
  softDeleteColumn : Option String
deriving DecidableEq, Repr

/-- A condition over tables. -/
inductive Condition where
  | isNull (column : ColumnRef) (negated : Bool)
  | equals (column : ColumnRef) (negated : Bool) (value : Placeholder)
  /-- Membership in a list that is not empty. -/
  | member (column : ColumnRef) (negated : Bool) (values : List Placeholder)
  | constant (holds : Bool)
  | day (column : ColumnRef) (bound : DateBound) (number : Nat)
  | like (column : ColumnRef) (number : Nat)
  | existsRow (negated : Bool) (scope : Scope) (inner : List (Joiner × Condition))
  | countRows (scope : Scope) (comparator : CountComparator) (number : Nat)
  | group (inner : List (Joiner × Condition))
deriving Repr

/-- What a statement has bound so far. -/
structure Bindings where
  values : List BindValue := []
  /-- How many aliases are in use. -/
  aliases : Nat := 0
deriving Repr

/-- A step of building a statement. -/
abbrev Binder (α : Type) := StateT Bindings (Except Fault) α

/-- Binds a value to the next placeholder. -/
def bindValue (value : BindValue) : Binder Nat :=
  fun s => .ok (s.values.length + 1, { s with values := s.values ++ [value] })

/-- Takes the next alias. -/
def freshAlias : Binder Alias :=
  fun s => .ok (.nested (s.aliases + 1), { s with aliases := s.aliases + 1 })

/-- Goes on with a result that needs no binding. -/
def liftFault {α : Type} (result : Except Fault α) : Binder α :=
  fun s => result.map fun a => (a, s)

/-- Binds a value of a column: cast where the type of the column is known, as text otherwise. -/
def bindColumn (r : Resource) (column : String) (value : Json) : Binder Placeholder :=
  match r.columnType? column with
  | some type => do
    let number ← bindValue (BindValue.typed value)
    return ⟨number, some type⟩
  | none => do
    let number ← bindValue (BindValue.untyped value)
    return ⟨number, none⟩

/-- The table of a resource. -/
def tableOf (r : Resource) : TableRef := ⟨r.schema, r.table⟩

/-- The related rows of a row over a relation. -/
def scopeOf (relation : Relation) (target : Resource) (parent child : Alias) : Scope :=
  { table := tableOf target
    child := child
    parent := parent
    foreignKey := relation.foreignKey
    localKey := relation.localKey
    softDeleteColumn := target.softDeleteColumn }

/-- A pattern for texts that contain a term: the characters with a meaning of their own are
escaped. -/
def containsPattern (term : String) : String :=
  String.ofList ('%' :: (term.toList.flatMap escape ++ ['%']))
where
  /-- A character of the term as it stands in the pattern. -/
  escape (c : Char) : List Char := if c = '%' || c = '_' || c = '\\' then ['\\', c] else [c]

/-- The condition for a test of a column. -/
def testCondition (r : Resource) (owner : Alias) (column : String) : Test → Binder Condition
  | .equals .null => return .isNull ⟨owner, column⟩ false
  | .differs .null => return .isNull ⟨owner, column⟩ true
  | .equals value => do return .equals ⟨owner, column⟩ false (← bindColumn r column value)
  | .differs value => do return .equals ⟨owner, column⟩ true (← bindColumn r column value)
  | .among values =>
    if values.isEmpty then return .constant false
    else do return .member ⟨owner, column⟩ false (← values.mapM (bindColumn r column))
  | .notAmong values =>
    if values.isEmpty then return .constant true
    else do return .member ⟨owner, column⟩ true (← values.mapM (bindColumn r column))

mutual

/-- The condition for a predicate on the rows that an alias stands for. -/
def predicateCondition (model : Model) (r : Resource) (owner : Alias) :
    Predicate → Binder Condition
  | .condition column test => testCondition r owner column test
  | .date column bound day => do
    let number ← bindValue (.text day)
    return .day ⟨owner, column⟩ bound number
  | .contains column term => do
    let number ← bindValue (.text (containsPattern term))
    return .like ⟨owner, column⟩ number
  | .related name negated clause => do
    let (relation, target) ← liftFault (model.related r name)
    let child ← freshAlias
    let inner ← clauseConditions model target child clause
    return .existsRow negated (scopeOf relation target owner child) inner
  | .count name comparator count => do
    let (relation, target) ← liftFault (model.related r name)
    let child ← freshAlias
    let number ← bindValue (.int count)
    return .countRows (scopeOf relation target owner child) comparator number
  | .group clause => do
    let inner ← clauseConditions model r owner clause
    return .group inner

/-- The conditions for the entries of a clause. -/
def clauseConditions (model : Model) (r : Resource) (owner : Alias) :
    List (Joiner × Predicate) → Binder (List (Joiner × Condition))
  | [] => return []
  | (joiner, predicate) :: rest => do
    let first ← predicateCondition model r owner predicate
    let rest ← clauseConditions model r owner rest
    return (joiner, first) :: rest

end

/-- The condition of a whole statement: the trash of the resource, and the clause. -/
structure Restriction where
  /-- The trash mark, with whether it has to be set. -/
  trash : Option (ColumnRef × Bool)
  conditions : List (Joiner × Condition)
deriving Repr

/-- The condition of a query. -/
def restrictionOf (model : Model) (r : Resource) (query : Query) : Binder Restriction := do
  let conditions ← clauseConditions model r .main query.clause
  return {
    trash := r.softDeleteColumn.map fun column => (⟨.main, column⟩, query.trashed = .only)
    conditions := conditions
  }

end Records.Sql
