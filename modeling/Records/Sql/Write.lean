import Records.Sql.Select

/-!
# Write statements

The statements that insert, change and remove rows.  Values of columns that the resource does not
have are left out, and the primary key of a row is never changed.  A resource with a trash keeps its
rows: removing one sets its mark, and only rows outside the trash are changed or removed.
-/

set_option autoImplicit false

namespace Records.Sql

/-- What a column is set to. -/
inductive Assigned where
  | value (placeholder : Placeholder)
  | now
deriving DecidableEq, Repr

/-- Which rows a statement is about, by their primary key. -/
inductive Addressed where
  | one (id : Placeholder)
  | anyOf (ids : List Placeholder)
deriving DecidableEq, Repr

/-- The rows of a table with given primary keys, those outside the trash if there is one. -/
structure Rows where
  table : TableRef
  primaryKey : String
  addressed : Addressed
  softDeleteColumn : Option String
deriving DecidableEq, Repr

/-- A statement that changes a table, or finds that there is nothing to change. -/
inductive Change where
  | insert (table : TableRef) (values : List (String × Placeholder))
  | fetch (rows : Rows)
  | update (rows : Rows) (sets : List (String × Assigned)) (returning : Bool)
  | delete (rows : Rows) (returning : Bool)
deriving DecidableEq, Repr

/-- The placeholder of a value of a column after some bound values, and those values with it. -/
def placeholder (r : Resource) (values : List BindValue) (column : String) (value : Json) :
    Placeholder × List BindValue :=
  match r.columnType? column with
  | some type => (⟨values.length + 1, some type⟩, values ++ [BindValue.typed value])
  | none => (⟨values.length + 1, none⟩, values ++ [BindValue.untyped value])

/-- The placeholders of some fields, each a value of the column of its name. -/
def placeholders (r : Resource) (values : List BindValue) :
    Fields → List (String × Placeholder) × List BindValue
  | [] => ([], values)
  | (column, value) :: rest =>
    let (first, values) := placeholder r values column value
    let (others, values) := placeholders r values rest
    ((column, first) :: others, values)

/-- The fields of given data that are columns of a resource. -/
def columnFields (r : Resource) (data : Fields) : Fields :=
  data.filter fun field => r.hasColumn field.1

/-- The statement that inserts a row. -/
def insert (r : Resource) (data : Fields) : Bound Change :=
  let (values, bound) := placeholders r [] (columnFields r data)
  ⟨.insert (tableOf r) values, bound⟩

/-- The row of an id, after some bound values. -/
def rowOf (r : Resource) (values : List BindValue) (id : Json) : Rows × List BindValue :=
  let (p, values) := placeholder r values r.primaryKey id
  (⟨tableOf r, r.primaryKey, .one p, r.softDeleteColumn⟩, values)

/-- The statement that changes a row; without any change it fetches the row. -/
def update (r : Resource) (id : Json) (data : Fields) : Bound Change :=
  let changed := r.changedFields data
  let (sets, values) := placeholders r [] changed
  let (rows, values) := rowOf r values id
  if changed.isEmpty then ⟨.fetch rows, values⟩
  else
    let sets := sets.map fun (column, p) => (column, Assigned.value p)
    let stamp := if r.stampsUpdate data then [(Resource.updatedColumn, Assigned.now)] else []
    ⟨.update rows (sets ++ stamp) true, values⟩

/-- The statement that removes rows. -/
def remove (rows : Rows) (returning : Bool) : Change :=
  match rows.softDeleteColumn with
  | some column => .update rows [(column, .now)] returning
  | none => .delete rows returning

/-- The statement that removes the row of an id. -/
def delete (r : Resource) (id : Json) : Bound Change :=
  let (rows, values) := rowOf r [] id
  ⟨remove rows true, values⟩

/-- The statement that removes the rows of some ids. -/
def deleteIn (r : Resource) (ids : List Json) : Bound Change :=
  let (ps, values) := placeholders r [] (ids.map fun id => (r.primaryKey, id))
  ⟨remove ⟨tableOf r, r.primaryKey, .anyOf (ps.map (·.2)), r.softDeleteColumn⟩ false, values⟩

end Records.Sql
