import Records.Config.Definition
import Records.Fault
import Records.Json.Written

/-!
# Reading a resources file

A record may be written as an object or as the list of its fields in order; trailing fields with a
default may then be left out.  Of an object unknown fields are skipped, but a known field must not
stand twice.  A kind of relation is a word, or an object of that word and null.
-/

set_option autoImplicit false

namespace Records.Config

/-- The value of a known field among written fields: `some none` when it is absent, `none` when it
stands more than once. -/
def fieldOnce? (name : String) (fields : List (Option String × Written)) :
    Option (Option Written) :=
  match fields.filter fun field => field.1 == some name with
  | [] => some none
  | [(_, value)] => some (some value)
  | _ => none

/-- The values of the fields of a record, by position. -/
def recordFields? (names : List String) : Written → Option (List (Option Written))
  | .record fields =>
    if fields.all fun field => field.1.isSome then names.mapM fun name => fieldOnce? name fields
    else none
  | .list items =>
    if items.length ≤ names.length then
      some (items.map some ++ List.replicate (names.length - items.length) none)
    else none
  | _ => none

/-- Reads a text. -/
def text? : Written → Option String
  | .str s => s
  | _ => none

/-- Reads a text that must be there. -/
def required? (value : Option Written) : Option String := value.bind text?

/-- Reads a text that has a default. -/
def withDefault? (default : String) : Option Written → Option String
  | none => some default
  | some value => text? value

/-- Reads a text that may be absent or null. -/
def optional? : Option Written → Option (Option String)
  | none => some none
  | some .null => some none
  | some value => (text? value).map some

/-- Reads a list. -/
def list? {α : Type} (item? : Written → Option α) : Written → Option (List α)
  | .list items => items.mapM item?
  | _ => none

/-- Reads a list that may be absent. -/
def listOrEmpty? {α : Type} (item? : Written → Option α) : Option Written → Option (List α)
  | none => some []
  | some value => list? item? value

/-- The kind that a word stands for. -/
def kindOfWord? (word : String) : Option RelationKind :=
  if word = "belongs_to" then some .belongsTo
  else if word = "has_one" then some .hasOne
  else if word = "has_many" then some .hasMany
  else none

/-- Reads a kind of relation. -/
def kind? : Written → Option RelationKind
  | .str (some word) => kindOfWord? word
  | .record [(some word, .null)] => kindOfWord? word
  | _ => none

/-- The depth at which a column stands inside a resources file. -/
def columnDepth : Nat := 4

/-- Reads a column: a text, or an object.  Unlike those of other records, its unknown fields must be
values too. -/
def column? (value : Written) : Option ColumnDef :=
  match value.value none (Written.depthLimit - columnDepth) with
  | .error _ => none
  | .ok _ =>
    match value with
    | .str s => s.map .plain
    | .list _ => none
    | value =>
      match recordFields? ["name", "type"] value with
      | some [name, type] =>
        match required? name, optional? type with
        | some name, some type => some (.typed name type)
        | _, _ => none
      | _ => none

/-- Reads a relation. -/
def relation? (value : Written) : Option RelationDef :=
  match recordFields? ["name", "resource", "kind", "local_key", "foreign_key"] value with
  | some [name, resource, kind, localKey, foreignKey] => do
    let name ← required? name
    let resource ← required? resource
    let kind ← kind.bind kind?
    let localKey ← required? localKey
    let foreignKey ← required? foreignKey
    return ⟨name, resource, kind, localKey, foreignKey⟩
  | _ => none

/-- The fields of a resource, in order. -/
def resourceFieldNames : List String :=
  ["name", "table", "schema", "primary_key", "key_type", "slug_column", "timestamp_column",
    "soft_delete_column", "columns", "searchable", "relations"]

/-- Reads a resource. -/
def resource? (value : Written) : Option ResourceDef :=
  match recordFields? resourceFieldNames value with
  | some [name, table, schema, primaryKey, keyType, slugColumn, timestampColumn, softDeleteColumn,
      columns, searchable, relations] => do
    let name ← required? name
    let table ← required? table
    let schema ← withDefault? "public" schema
    let primaryKey ← withDefault? "id" primaryKey
    let keyType ← optional? keyType
    let slugColumn ← optional? slugColumn
    let timestampColumn ← withDefault? "created_at" timestampColumn
    let softDeleteColumn ← optional? softDeleteColumn
    let columns ← columns.bind (list? column?)
    let searchable ← listOrEmpty? text? searchable
    let relations ← listOrEmpty? relation? relations
    return {
      name := name
      table := table
      schema := schema
      primaryKey := primaryKey
      keyType := keyType
      slugColumn := slugColumn
      timestampColumn := timestampColumn
      softDeleteColumn := softDeleteColumn
      columns := columns
      searchable := searchable
      relations := relations
    }
  | _ => none

/-- Reads definitions. -/
def definitions? (value : Written) : Option Definitions :=
  match recordFields? ["resources"] value with
  | some [some resources] => (list? resource? resources).map Definitions.mk
  | _ => none

/-- Reads a resources file. -/
def parse (text : String) : Except ConfigFault Definitions :=
  let reading := Written.read text
  let defs := if reading.ends ∧ reading.tree.whole then definitions? reading.tree else none
  match defs with
  | some defs => .ok defs
  | none => .error (.unreadable "not a resources file")

end Records.Config
