/-!
# Resource definitions

A resources file as its author wrote it, with the defaults filled in: which tables there are, their
columns, their relations, and which columns have a special role.
-/

set_option autoImplicit false

namespace Records

/-- How many rows a relation leads to, and which side holds the reference. -/
inductive RelationKind where
  | belongsTo
  | hasOne
  | hasMany
deriving DecidableEq, Repr

/-- The word for a kind of relation. -/
def RelationKind.word : RelationKind → String
  | .belongsTo => "belongs_to"
  | .hasOne => "has_one"
  | .hasMany => "has_many"

/-- A column as it is written: its name alone, or with a type. -/
inductive ColumnDef where
  | plain (name : String)
  | typed (name : String) (type : Option String)
deriving DecidableEq, Repr

/-- The name of a column. -/
def ColumnDef.name : ColumnDef → String
  | .plain name => name
  | .typed name _ => name

/-- The type that a column is given. -/
def ColumnDef.type : ColumnDef → Option String
  | .plain _ => none
  | .typed _ type => type

/-- A relation to another resource. -/
structure RelationDef where
  name : String
  /-- The resource that it leads to. -/
  resource : String
  kind : RelationKind
  /-- The join column of this resource. -/
  localKey : String
  /-- The join column of the other resource. -/
  foreignKey : String
deriving DecidableEq, Repr

/-- A resource. -/
structure ResourceDef where
  name : String
  table : String
  schema : String := "public"
  primaryKey : String := "id"
  keyType : Option String := none
  slugColumn : Option String := none
  timestampColumn : String := "created_at"
  softDeleteColumn : Option String := none
  columns : List ColumnDef
  /-- The fields that a search looks into: columns, or a relation and a column of its target. -/
  searchable : List String := []
  relations : List RelationDef := []
deriving DecidableEq, Repr

/-- The columns of a resource: the declared ones, the time stamp and the trash mark. -/
def ResourceDef.columnNames (r : ResourceDef) : List String :=
  r.columns.map ColumnDef.name ++ r.timestampColumn :: r.softDeleteColumn.toList

/-- The definitions of a resources file, in order. -/
structure Definitions where
  resources : List ResourceDef
deriving DecidableEq, Repr

/-- The definition of a name. -/
def Definitions.find? (defs : Definitions) (name : String) : Option ResourceDef :=
  defs.resources.find? fun r => r.name == name

end Records
