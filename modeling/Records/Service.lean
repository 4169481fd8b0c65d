import Records.Query.Listing
import Records.Store.Change
import Records.Store.Read
import Records.Uuid

/-!
# The service of a resource

What a client can do with one resource: list its rows, get one by its key or its slug, create,
update and delete.  Keys are read in the form that the type of the key prescribes.
-/

set_option autoImplicit false

namespace Records

/-- A resource of a model, offered to clients. -/
structure Service where
  model : Model
  resource : Resource
  flavor : Flavor
deriving Repr

namespace Service

/-- The service of a resource, which has to exist. -/
def open? (model : Model) (flavor : Flavor) (name : String) : Except Fault Service :=
  (model.requireResource name).map fun r => ⟨model, r, flavor⟩

/-- Reads a key. -/
def readKey (service : Service) (raw : String) : Except Fault Json :=
  match service.resource.keyType with
  | .uuid =>
    match Uuid.normalize? raw with
    | some id => .ok (.str id)
    | none => .error (.badRequest .invalidUuid)
  | .bigInt | .int =>
    match Numeral.int64? raw with
    | some n => .ok (.int n)
    | none => .error (.badRequest .invalidId)
  | .text => .ok (.str raw)

/-- Reads a key that is given as a value. -/
def keyOfValue (service : Service) (value : Json) : Except Fault Json :=
  match value with
  | .str s => service.readKey s
  | value =>
    match value.int64? with
    | none => .error (.badRequest .invalidId)
    | some n =>
      match service.resource.keyType with
      | .bigInt | .int => .ok (.int n)
      | .text => .ok (.str (Json.int n).compact)
      | .uuid => .error (.badRequest .invalidUuid)

/-- One page of the rows. -/
def list (service : Service) (store : Store) (params : ListParams) (eager columns : List String) :
    Except Fault (Page Json) := do
  let listing ←
    Listing.ofParams service.model service.resource service.flavor params eager columns
  store.page service.model listing.query listing.paging

/-- The first row whose column has a value. -/
def firstWith (service : Service) (store : Store) (query : Query) (column : String)
    (value : Json) : Except Fault Json := do
  let entry : Joiner × Predicate := (.and, .condition column (.equals value))
  match ← store.first? service.model { query with clause := query.clause ++ [entry] } with
  | some row => return row
  | none => throw (.notFound .record)

/-- The row of a key. -/
def rowOfKey (service : Service) (store : Store) (id : Json) (eager columns : List String) :
    Except Fault Json := do
  let query ← Listing.base service.resource eager columns
  service.firstWith store query service.resource.primaryKey id

/-- The row of a slug. -/
def rowOfSlug (service : Service) (store : Store) (slug : String)
    (eager columns : List String) : Except Fault Json :=
  match service.resource.slugColumn with
  | none => .error (.badRequest (.noSlugColumn service.resource.name))
  | some column => do
    let query ← Listing.base service.resource eager columns
    service.firstWith store query column (.str slug)

/-- Creates a row. -/
def create (service : Service) (supply : Supply) (store : Store) (data : Fields) :
    Row × Store :=
  store.insert supply service.resource data

/-- A row that has to be there. -/
def requireRow : Option Row → Except Fault Json
  | some row => .ok (.obj row)
  | none => .error (.notFound .record)

/-- Updates the row of a key. -/
def update (service : Service) (supply : Supply) (store : Store) (id : Json) (data : Fields) :
    Except Fault Json × Store :=
  let (row, store) := store.update supply service.resource id data
  (requireRow row, store)

/-- Deletes the row of a key. -/
def delete (service : Service) (supply : Supply) (store : Store) (id : Json) :
    Except Fault Json × Store :=
  match service.rowOfKey store id [] [] with
  | .error why => (.error why, store)
  | .ok _ =>
    let (row, store) := store.delete supply service.resource id
    (requireRow row, store)

/-- Deletes the rows of some keys; with their number. -/
def deleteAll (service : Service) (supply : Supply) (store : Store) (ids : List Json) :
    Nat × Store :=
  if ids.isEmpty then (0, store) else store.deleteIn supply service.resource ids

end Service

end Records
