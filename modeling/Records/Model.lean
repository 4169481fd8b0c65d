import Records.Config.Definition
import Records.Fault
import Records.Json.Value

/-!
# The resource model

Resources with everything resolved that a request needs: all columns with their database types, the
type of the key, and the relations.
-/

set_option autoImplicit false

namespace Records

/-- How the keys of a resource are written. -/
inductive KeyType where
  | uuid
  | bigInt
  | int
  | text
deriving DecidableEq, Repr

/-- A column with the database type to which values are cast. -/
structure Column where
  name : String
  type : Option String
deriving DecidableEq, Repr

/-- A relation to another resource of the model. -/
structure Relation where
  name : String
  kind : RelationKind
  /-- The name of the resource that it leads to. -/
  related : String
  localKey : String
  foreignKey : String
deriving DecidableEq, Repr

/-- Whether a relation leads to a list of rows. -/
def Relation.isMany (relation : Relation) : Bool := relation.kind = .hasMany

/-- A resolved resource. -/
structure Resource where
  name : String
  schema : String
  table : String
  primaryKey : String
  keyType : KeyType
  columns : List Column
  slugColumn : Option String
  timestampColumn : String
  softDeleteColumn : Option String
  searchable : List String
  relations : List Relation
deriving DecidableEq, Repr

namespace Resource

/-- The column of a name. -/
def column? (r : Resource) (name : String) : Option Column :=
  r.columns.find? fun c => c.name == name

/-- Whether there is a column of a name. -/
def hasColumn (r : Resource) (name : String) : Bool := (r.column? name).isSome

/-- The column of a name, which has to exist. -/
def requireColumn (r : Resource) (name : String) : Except Fault Column :=
  match r.column? name with
  | some column => .ok column
  | none => .error (.badRequest (.unknownColumn name r.name))

/-- The relation of a name. -/
def relation? (r : Resource) (name : String) : Option Relation :=
  r.relations.find? fun relation => relation.name == name

/-- The relation of a name, which has to exist. -/
def requireRelation (r : Resource) (name : String) : Except Fault Relation :=
  match r.relation? name with
  | some relation => .ok relation
  | none => .error (.badRequest (.unknownRelation name r.name))

/-- The database type of a column. -/
def columnType? (r : Resource) (name : String) : Option String :=
  (r.column? name).bind Column.type

/-- The column that holds the time of the last change. -/
def updatedColumn : String := "updated_at"

/-- The fields of given data that an update changes: columns other than the primary key. -/
def changedFields (r : Resource) (data : Fields) : Fields :=
  data.filter fun field => field.1 ≠ r.primaryKey && r.hasColumn field.1

/-- Whether an update sets the time of the last change, which data may also give itself. -/
def stampsUpdate (r : Resource) (data : Fields) : Bool :=
  r.hasColumn updatedColumn && !Fields.has data updatedColumn

end Resource

/-- The resources of a service, in order. -/
structure Model where
  resources : List Resource
deriving DecidableEq, Repr

namespace Model

/-- The resource of a name. -/
def resource? (model : Model) (name : String) : Option Resource :=
  model.resources.find? fun r => r.name == name

/-- The resource of a name, which has to exist. -/
def requireResource (model : Model) (name : String) : Except Fault Resource :=
  match model.resource? name with
  | some r => .ok r
  | none => .error (.badRequest (.unknownResource name))

/-- A relation of a resource together with the resource that it leads to. -/
def related (model : Model) (owner : Resource) (name : String) :
    Except Fault (Relation × Resource) := do
  let relation ← owner.requireRelation name
  let target ← model.requireResource relation.related
  return (relation, target)

end Model

end Records
