import Records.Http.Answer
import Records.Proofs.Calls

/-!
# Handlers

What a request asks of a resource, a listing aside, is read by the service of the resource as one
call (`Asked.call`).  A handler looks up the service, has it read the call and then perform it;
where one of the first two fails, it gives the fault and the store as it was (`handler_eq`).  So
what holds of all calls holds of all handlers, and none of these handlers depends on the flavor of
its site (`handler_withFlavor`).
-/

set_option autoImplicit false

namespace Records

/-- The body that shows what a service gives. -/
def Service.Reply.body : Reply → Json
  | .page shown => Http.pageBody shown
  | .row shown => Http.dataBody shown
  | .number n => Http.dataBody (.obj [("deleted", .int n)])

/-- What a service gives for a call, as far as the call could be read. -/
def Service.serve (service : Service) (supply : Supply) (store : Store) :
    Except Fault Call → Except Fault Json × Store
  | .error why => (.error why, store)
  | .ok call =>
    ((service.perform supply store call).1.map Reply.body, (service.perform supply store call).2)

/-- A call that gives a row is answered with the row as the data of a body. -/
theorem Service.serve_of_row {service : Service} {supply : Supply} {store after : Store}
    {call : Call}
    {row : Except Fault Json} (h : service.perform supply store call = (row.map .row, after)) :
    service.serve supply store (.ok call) = (row.map Http.dataBody, after) := by
  rw [serve, h, Outcome.map_map]
  rfl

namespace Http

/-- What a request asks of a resource, a listing aside. -/
inductive Asked where
  | row (id : String) (pairs : List (String × String))
  | rowOfSlug (slug : String) (pairs : List (String × String))
  | create (body : Json)
  | update (id : String) (body : Json)
  | delete (id : String)
  | deleteAll (ids : List Json)

/-- The call that is asked of a service, as the service reads it. -/
def Asked.call (service : Service) : Asked → Except Fault Service.Call
  | .row id pairs => do
    let key ← service.readKey id
    let parts := QueryParts.ofPairs pairs
    return .rowOfKey key parts.eager parts.columns
  | .rowOfSlug slug pairs =>
    let parts := QueryParts.ofPairs pairs
    .ok (.rowOfSlug slug parts.eager parts.columns)
  | .create body => do
    let data ← objectBody body
    return .create data
  | .update id body => do
    let key ← service.readKey id
    let data ← objectBody body
    return .update key data
  | .delete id => do
    let key ← service.readKey id
    return .delete key
  | .deleteAll ids => do
    let keys ← ids.mapM service.keyOfValue
    return .deleteAll keys

/-- No page of a resource is asked for. -/
theorem Asked.call_ne_list (asked : Asked) (service : Service) (params : ListParams)
    (eager columns : List String) : asked.call service ≠ .ok (.list params eager columns) := by
  cases asked <;> simp [Asked.call, Outcome.bind_eq_ok, pure, Except.pure]

namespace Site

/-- What the handler gives for what is asked of a resource. -/
def handler (site : Site) (supply : Supply) (store : Store) (resource : String) :
    Asked → Except Fault Json × Store
  | .row id pairs => (site.read store resource id pairs, store)
  | .rowOfSlug slug pairs => (site.readSlug store resource slug pairs, store)
  | .create body => site.create supply store resource body
  | .update id body => site.update supply store resource id body
  | .delete id => site.delete supply store resource id
  | .deleteAll ids => site.deleteAll supply store resource ids

/-- A handler gives what the service of the resource gives for the call that is asked of it. -/
theorem handler_eq (site : Site) (supply : Supply) (store : Store) (resource : String)
    (asked : Asked) :
    site.handler supply store resource asked =
      match site.service resource with
      | .error why => (.error why, store)
      | .ok service => service.serve supply store (asked.call service) := by
  cases hservice : site.service resource with
  | error why =>
    -- every handler looks up its resource first
    cases asked <;>
      simp only [handler, read, readSlug, create, update, delete, deleteAll, hservice, bind,
        Except.bind]
  | ok service =>
    cases asked with
    | row id pairs =>
      simp only [handler, read, hservice, Asked.call, bind, Except.bind]
      cases service.readKey id with
      | error why => rfl
      | ok key => exact (Service.serve_of_row rfl).symm
    | rowOfSlug slug pairs =>
      simp only [handler, readSlug, hservice]
      exact (Service.serve_of_row rfl).symm
    | create body =>
      simp only [handler, create, hservice, Asked.call, bind, Except.bind]
      cases objectBody body <;> rfl
    | update id body =>
      simp only [handler, update, hservice, Asked.call, bind, Except.bind]
      cases service.readKey id with
      | error why => rfl
      | ok key =>
        cases objectBody body with
        | error why => rfl
        | ok data => exact (Service.serve_of_row rfl).symm
    | delete id =>
      simp only [handler, delete, hservice, Asked.call, bind, Except.bind]
      cases service.readKey id with
      | error why => rfl
      | ok key => exact (Service.serve_of_row rfl).symm
    | deleteAll ids =>
      simp only [handler, deleteAll, hservice, Asked.call, bind, Except.bind]
      cases ids.mapM service.keyOfValue <;> rfl

/-! ### Flavors -/

/-- The site that answers in another flavor. -/
def withFlavor (site : Site) (flavor : Flavor) : Site := { site with flavor := flavor }

/-- The service that a site in another flavor finds differs in the flavor alone. -/
theorem service_withFlavor (site : Site) (flavor : Flavor) (resource : String) :
    (site.withFlavor flavor).service resource =
      (site.service resource).map fun service => { service with flavor := flavor } := by
  rw [service, service, Service.open?, Service.open?, withFlavor]
  cases site.model.requireResource resource <;> rfl

/-- What a call that is asked for gives is the same in all flavors. -/
theorem serve_withFlavor (service : Service) (flavor : Flavor) (supply : Supply) (store : Store)
    (asked : Asked) :
    ({ service with flavor := flavor } : Service).serve supply store
        (asked.call { service with flavor := flavor }) =
      service.serve supply store (asked.call service) := by
  have hcall : asked.call { service with flavor := flavor } = asked.call service := by
    cases asked <;> rfl
  rw [hcall]
  cases h : asked.call service with
  | error why => rfl
  | ok call =>
    cases call with
    | list params eager columns => exact absurd h (asked.call_ne_list service params eager columns)
    | _ => rfl

/-- What a handler gives is the same in all flavors. -/
theorem handler_withFlavor (site : Site) (flavor : Flavor) (supply : Supply) (store : Store)
    (resource : String) (asked : Asked) :
    (site.withFlavor flavor).handler supply store resource asked =
      site.handler supply store resource asked := by
  rw [handler_eq, handler_eq, service_withFlavor]
  cases site.service resource with
  | error why => rfl
  | ok service => exact serve_withFlavor service flavor supply store asked

end Site

end Http

end Records
