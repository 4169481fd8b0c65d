import Records.Config.Definition
import Records.Fault
import Records.Text.Split

/-!
# Referential soundness of definitions

Names of resources are distinct, and everything a definition names exists: its key columns, the
targets and join columns of its relations, and the fields that it searches.  Of several faults the
first in the order of the file is reported, after repeated resource names.
-/

set_option autoImplicit false

namespace Records.Config

/-- The first name that stands twice in a list. -/
def repeated? (seen : List String) : List String → Option String
  | [] => none
  | name :: rest => if seen.contains name then some name else repeated? (name :: seen) rest

/-- Requires a column of a resource. -/
def requireColumn (r : ResourceDef) (column : String) : Except ConfigFault Unit :=
  if r.columnNames.contains column then .ok ()
  else .error (.unknownColumn r.name column)

/-- Checks the relations of a resource one after another; `seen` are the names of those before. -/
def checkRelations (defs : Definitions) (r : ResourceDef) (seen : List String) :
    List RelationDef → Except ConfigFault Unit
  | [] => .ok ()
  | relation :: rest => do
    if seen.contains relation.name then
      throw (.duplicateRelation relation.name r.name)
    match defs.find? relation.resource with
    | none => throw (.missingReference .resource relation.resource)
    | some target =>
      requireColumn r relation.localKey
      requireColumn target relation.foreignKey
      checkRelations defs r (relation.name :: seen) rest

/-- Checks a field that a search looks into. -/
def checkSearchable (defs : Definitions) (r : ResourceDef) (field : String) :
    Except ConfigFault Unit :=
  match Text.cutFirst '.' field.toList with
  | none => requireColumn r field
  | some (relation, column) =>
    let relationName := String.ofList relation
    match r.relations.find? fun d => d.name == relationName with
    | none => .error (.missingReference .relation (r.name ++ "." ++ relationName))
    | some d =>
      if column.contains '.' then .error (.deepSearchField field)
      else
        match defs.find? d.resource with
        | some target => requireColumn target (String.ofList column)
        | none => .ok ()

/-- Checks one resource. -/
def checkResource (defs : Definitions) (r : ResourceDef) : Except ConfigFault Unit := do
  requireColumn r r.primaryKey
  r.slugColumn.toList.forM (requireColumn r)
  checkRelations defs r [] r.relations
  r.searchable.forM (checkSearchable defs r)

/-- Checks definitions. -/
def check (defs : Definitions) : Except ConfigFault Unit :=
  match repeated? [] (defs.resources.map ResourceDef.name) with
  | some name => .error (.duplicateResource name)
  | none => defs.resources.forM (checkResource defs)

end Records.Config
