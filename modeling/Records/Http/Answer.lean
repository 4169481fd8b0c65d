import Records.Http.Request
import Records.Http.Response
import Records.Http.Route
import Records.Params.Brackets
import Records.Service

/-!
# Answering requests

A request is routed, its parameters and its body are read, and then the service of its resource
answers.  What cannot be read is answered before any resource is looked at.  A failing request
leaves the store as it was.
-/

set_option autoImplicit false

namespace Records.Http

/-- What a server knows besides its store. -/
structure Site where
  model : Model
  flavor : Flavor
  /-- The greatest request body, in bytes. -/
  bodyLimit : Nat
deriving Repr

/-- The part of a query that says what is shown, and the rest of it. -/
structure QueryParts where
  eager : List String := []
  columns : List String := []
  rest : List (String × String) := []
deriving DecidableEq, Repr

/-- The names in a list with commas, blanks around them aside; empty ones are skipped. -/
def commaNames (text : String) : List String :=
  ((Text.splitAt ',' text.toList).map Text.trimChars).filterMap fun name =>
    if name.isEmpty then none else some (String.ofList name)

namespace QueryParts

/-- Whether a pair names relations that are shown. -/
def namesRelations (pair : String × String) : Bool := pair.1 = "with" || pair.1 = "with[]"

/-- Whether a pair names columns that are shown. -/
def namesColumns (pair : String × String) : Bool := pair.1 = "select" || pair.1 = "select[]"

/-- The parts of the pairs of a query; each part keeps the order of the query. -/
def ofPairs (pairs : List (String × String)) : QueryParts where
  eager := (pairs.filter namesRelations).flatMap fun pair => commaNames pair.2
  columns := (pairs.filter namesColumns).flatMap fun pair => commaNames pair.2
  rest := pairs.filter fun pair => !namesRelations pair && !namesColumns pair

/-- The parameters of a listing in the rest of a query. -/
def params (parts : QueryParts) : Except Fault ListParams := do
  let value ← Brackets.ofPairs parts.rest
  ListParams.parse value

end QueryParts

/-- The body of a success: the data under one field. -/
def dataBody (value : Json) : Json := .obj [("data", value)]

/-- The body of a page: its rows, and its place in the whole. -/
def pageBody (page : Page Json) : Json :=
  .obj [
    ("data", .arr page.items),
    ("meta", .obj [
      ("total", .int page.total),
      ("current_page", .int page.currentPage),
      ("per_page", .int page.perPage),
      ("last_page", .int page.lastPage)])]

/-- The fields of a body that has to be an object. -/
def objectBody : Json → Except Fault Fields
  | .obj fields => .ok fields
  | _ => .error (.badRequest .bodyNotObject)

/-- The service of a resource that a path names. -/
def Site.service (site : Site) (resource : String) : Except Fault Service :=
  match Service.open? site.model site.flavor resource with
  | .ok service => .ok service
  | .error _ => .error (.notFound (.resource resource))

/-- The response to an outcome. -/
def Site.respond (site : Site) (status : Nat) : Except Fault Json → Response
  | .ok body => .json status body
  | .error why => reject site.flavor why

/-- The response to a body that was not read. -/
def refuseBody (why : BodyFault) : Response := .plain why.status .remark

/-- One page of a resource. -/
def Site.list (site : Site) (store : Store) (resource : String)
    (pairs : List (String × String)) : Except Fault Json := do
  let service ← site.service resource
  let parts := QueryParts.ofPairs pairs
  let params ← parts.params
  let page ← service.list store params parts.eager parts.columns
  return pageBody page

/-- The row of a key. -/
def Site.read (site : Site) (store : Store) (resource id : String)
    (pairs : List (String × String)) : Except Fault Json := do
  let service ← site.service resource
  let id ← service.readKey id
  let parts := QueryParts.ofPairs pairs
  let row ← service.rowOfKey store id parts.eager parts.columns
  return dataBody row

/-- The row of a slug. -/
def Site.readSlug (site : Site) (store : Store) (resource slug : String)
    (pairs : List (String × String)) : Except Fault Json := do
  let service ← site.service resource
  let parts := QueryParts.ofPairs pairs
  let row ← service.rowOfSlug store slug parts.eager parts.columns
  return dataBody row

/-- Creates a row. -/
def Site.create (site : Site) (supply : Supply) (store : Store) (resource : String)
    (body : Json) : Except Fault Json × Store :=
  let start : Except Fault (Service × Fields) := do
    let service ← site.service resource
    let data ← objectBody body
    return (service, data)
  match start with
  | .error why => (.error why, store)
  | .ok (service, data) =>
    let (row, store) := service.create supply store data
    (.ok (dataBody (.obj row)), store)

/-- Updates the row of a key. -/
def Site.update (site : Site) (supply : Supply) (store : Store) (resource id : String)
    (body : Json) : Except Fault Json × Store :=
  let start : Except Fault (Service × Json × Fields) := do
    let service ← site.service resource
    let id ← service.readKey id
    let data ← objectBody body
    return (service, id, data)
  match start with
  | .error why => (.error why, store)
  | .ok (service, id, data) =>
    let (row, store) := service.update supply store id data
    (row.map dataBody, store)

/-- Deletes the row of a key. -/
def Site.delete (site : Site) (supply : Supply) (store : Store) (resource id : String) :
    Except Fault Json × Store :=
  let start : Except Fault (Service × Json) := do
    let service ← site.service resource
    let id ← service.readKey id
    return (service, id)
  match start with
  | .error why => (.error why, store)
  | .ok (service, id) =>
    let (row, store) := service.delete supply store id
    (row.map dataBody, store)

/-- Deletes the rows of some keys. -/
def Site.deleteAll (site : Site) (supply : Supply) (store : Store) (resource : String)
    (ids : List Json) : Except Fault Json × Store :=
  let start : Except Fault (Service × List Json) := do
    let service ← site.service resource
    let ids ← ids.mapM service.keyOfValue
    return (service, ids)
  match start with
  | .error why => (.error why, store)
  | .ok (service, ids) =>
    let (deleted, store) := service.deleteAll supply store ids
    (.ok (dataBody (.obj [("deleted", .int deleted)])), store)

/-- The name and version that a server tells. -/
def versionBody : Json := .obj [("name", .str "resource-kit"), ("version", .str "0.1.0")]

/-- Answers a request for a route by a method that reads. -/
def Site.answerRead (site : Site) (store : Store) (route : Route String)
    (pairs : List (String × String)) : Response :=
  match route with
  | .health => .json 200 (.obj [("status", .str "ok")])
  | .version => .json 200 versionBody
  | .collection resource => site.respond 200 (site.list store resource pairs)
  | .slug resource slug => site.respond 200 (site.readSlug store resource slug pairs)
  | .item resource id => site.respond 200 (site.read store resource id pairs)
  | .bulk _ => .bare 405

/-- Answers an outcome that comes with the store after it. -/
def Site.conclude (site : Site) (status : Nat) (outcome : Except Fault Json × Store) :
    Response × Store :=
  (site.respond status outcome.1, outcome.2)

/-- Answers a request for a route by a method that the route answers. -/
def Site.answer (site : Site) (supply : Supply) (store : Store) (request : Request)
    (route : Route String) (method : Method) : Response × Store :=
  match method, route with
  | .get, route => (site.answerRead store route request.pairs, store)
  | .head, route => ((site.answerRead store route request.pairs).withoutBody, store)
  | .post, .collection resource =>
    match request.jsonBody site.bodyLimit with
    | .error why => (refuseBody why, store)
    | .ok body => site.conclude 201 (site.create supply store resource body)
  | .post, .bulk resource =>
    match request.keysBody site.bodyLimit with
    | .error why => (refuseBody why, store)
    | .ok ids => site.conclude 200 (site.deleteAll supply store resource ids)
  | .patch, .item resource id | .put, .item resource id =>
    match request.jsonBody site.bodyLimit with
    | .error why => (refuseBody why, store)
    | .ok body => site.conclude 200 (site.update supply store resource id body)
  | .delete, .item resource id => site.conclude 200 (site.delete supply store resource id)
  | _, _ => (.bare 405, store)

/-- Answers a request.  The limit on bodies is met where a body is read: a request that declares a
greater length is refused before it is routed, and is none of those described here. -/
def Site.handle (site : Site) (supply : Supply) (store : Store) (request : Request) :
    Response × Store :=
  match Route.ofPath? request.path with
  | none => (.bare 404, store)
  | some encoded =>
    match (Method.ofWord? request.method).filter encoded.answers with
    | none => (.bare 405, store)
    | some method =>
      match encoded.decode? with
      | some route => site.answer supply store request route method
      | none =>
        let response := Response.plain 400 .remark
        (if method = .head then response.withoutBody else response, store)

end Records.Http
