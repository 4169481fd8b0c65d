import Records.Model
import Records.Store.Compare

/-!
# The store

Rows in memory: for each resource the list of its rows in the order in which they came.  A row in
the trash, that is, with a trash mark that is not null, stays stored but is not live.
-/

set_option autoImplicit false

namespace Records

/-- A stored row. -/
abbrev Row := Fields

/-- The rows of every resource. -/
structure Store where
  tables : List (String × List Row) := []
deriving Repr

namespace Store

/-- The rows of a resource, in order. -/
def rows (store : Store) (resource : String) : List Row :=
  match store.tables.find? fun table => table.1 == resource with
  | some table => table.2
  | none => []

/-- Puts rows in the place of those of a resource, among the tables. -/
def setTable (resource : String) (rows : List Row) :
    List (String × List Row) → List (String × List Row)
  | [] => [(resource, rows)]
  | (name, old) :: rest =>
    if name == resource then (name, rows) :: rest else (name, old) :: setTable resource rows rest

/-- The store with other rows of a resource. -/
def setRows (store : Store) (resource : String) (rows : List Row) : Store :=
  ⟨setTable resource rows store.tables⟩

end Store

namespace Row

/-- A value of a row, unless it is missing or null. -/
def present? (row : Row) (column : String) : Option Json :=
  Json.present? (Fields.get? row column)

/-- Whether a row is outside the trash. -/
def isLive (r : Resource) (row : Row) : Bool :=
  match r.softDeleteColumn with
  | some column => (present? row column).isNone
  | none => true

/-- Whether a row has a key. -/
def hasKey (r : Resource) (id : Json) (row : Row) : Bool :=
  match Fields.get? row r.primaryKey with
  | some key => key.agrees id
  | none => false

end Row

namespace Store

/-- The live rows that are related to a row; a missing or null local key is related to none. -/
def relatedRows (store : Store) (relation : Relation) (target : Resource) (row : Row) :
    List Row :=
  match Row.present? row relation.localKey with
  | none => []
  | some key =>
    (store.rows target.name).filter fun child =>
      Row.isLive target child &&
        match Fields.get? child relation.foreignKey with
        | some value => value.agrees key
        | none => false

end Store

end Records
