import Records.Config.Check
import Records.Model
import Records.Text.Lowercase

/-!
# From definitions to a model

Sound definitions are resolved one by one: the time stamp and the trash mark become columns if they
are not declared, the written types become database types, and the type of the key is inferred.
-/

set_option autoImplicit false

namespace Records.Config

/-- The database type that a written type stands for, the case of letters aside.  A type that is not
known is kept when it is qualified by a schema. -/
def databaseType? (type : String) : Option String :=
  let word := Text.lowerChars type.toList
  let isOneOf (words : List String) : Bool := words.any fun w => w.toList = word
  if isOneOf ["timestamptz", "timestamp with time zone"] then some "timestamptz"
  else if isOneOf ["timestamp"] || "timestamp ".toList.isPrefixOf word then some "timestamp"
  else if isOneOf ["date"] then some "date"
  else if Text.occursIn "uuid".toList word then some "uuid"
  else if isOneOf ["bigint", "bigserial", "int8"] then some "bigint"
  else if isOneOf ["integer", "int", "serial", "int4"] then some "integer"
  else if "bool".toList.isPrefixOf word then some "boolean"
  else if isOneOf ["json", "jsonb"] then some "jsonb"
  else if isOneOf ["double precision", "float8"] then some "double precision"
  else if type.toList.contains '.' then some type
  else none

/-- Adds a column of time stamps unless there is one of that name. -/
def addTimestamp (columns : List Column) (name : String) : List Column :=
  if columns.any fun c => c.name == name then columns
  else columns ++ [⟨name, some "timestamptz"⟩]

/-- The columns of a resource: the declared ones, the time stamp and the trash mark. -/
def columnsOf (r : ResourceDef) : List Column :=
  (r.timestampColumn :: r.softDeleteColumn.toList).foldl addTimestamp
    (r.columns.map fun c => ⟨c.name, c.type.bind databaseType?⟩)

/-- The type of a key that a lower-case word stands for. -/
def keyTypeOfWord (word : List Char) : KeyType :=
  let mentions (part : String) : Bool := Text.occursIn part.toList word
  if mentions "uuid" then .uuid
  else if mentions "bigint" || mentions "bigserial" then .bigInt
  else if mentions "int" || mentions "serial" then .int
  else .text

/-- The type of the key: the declared one, else that of the key column. -/
def keyTypeOf (r : ResourceDef) (columns : List Column) : KeyType :=
  let declared := r.keyType.map fun type => Text.lowerChars type.toList
  let fromColumn := (columns.find? fun c => c.name == r.primaryKey).bind fun c =>
    c.type.map String.toList
  match declared.or fromColumn with
  | some word => keyTypeOfWord word
  | none => .text

/-- Resolves one resource. -/
def resolveResource (r : ResourceDef) : Resource :=
  let columns := columnsOf r
  { name := r.name
    schema := r.schema
    table := r.table
    primaryKey := r.primaryKey
    keyType := keyTypeOf r columns
    columns := columns
    slugColumn := r.slugColumn
    timestampColumn := r.timestampColumn
    softDeleteColumn := r.softDeleteColumn
    searchable := r.searchable
    relations := r.relations.map fun d => ⟨d.name, d.kind, d.resource, d.localKey, d.foreignKey⟩ }

/-- Resolves definitions, which have to be sound. -/
def resolve (defs : Definitions) : Except ConfigFault Model := do
  check defs
  return ⟨defs.resources.map resolveResource⟩

end Records.Config
