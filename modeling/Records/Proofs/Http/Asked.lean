import Records.Proofs.Http.Effects

/-!
# What a request asks for

A request that is read to its end asks for one call of a service.  One that is refused on the way,
or that only reads, asks for no change.  What a request leaves is what that call leaves, or the
store as it was (`handle_store`).
-/

set_option autoImplicit false

namespace Records.Http.Site

variable (site : Site)

/-- The service of a resource that a path names, with the call that is asked of it. -/
def onService (resource : String) (asked : Asked) : Option (Service × Service.Call) := do
  let service ← (site.service resource).toOption
  let call ← (asked.call service).toOption
  return (service, call)

/-- The changing call that a request for a route asks for. -/
def callOn? (request : Request) (route : Route String) (method : Method) :
    Option (Service × Service.Call) :=
  match method, route with
  | .post, .collection resource => do
    let body ← (request.jsonBody site.bodyLimit).toOption
    site.onService resource (.create body)
  | .post, .bulk resource => do
    let ids ← (request.keysBody site.bodyLimit).toOption
    site.onService resource (.deleteAll ids)
  | .patch, .item resource id | .put, .item resource id => do
    let body ← (request.jsonBody site.bodyLimit).toOption
    site.onService resource (.update id body)
  | .delete, .item resource id => site.onService resource (.delete id)
  | _, _ => none

/-- The changing call that a request asks for. -/
def call? (request : Request) : Option (Service × Service.Call) := do
  let encoded ← Route.ofPath? request.path
  let method ← (Method.ofWord? request.method).filter encoded.answers
  let route ← encoded.decode?
  site.callOn? request route method

/-- What the call that is asked for leaves. -/
def left (supply : Supply) (store : Store) : Option (Service × Service.Call) → Store
  | some (service, call) => (service.perform supply store call).2
  | none => store

variable {site} (supply : Supply) (store : Store)

/-- A handler leaves what the call leaves that is asked of it. -/
theorem handler_store (resource : String) (asked : Asked) :
    (site.handler supply store resource asked).2 =
      left supply store (site.onService resource asked) := by
  rw [handler_eq, onService]
  cases site.service resource with
  | error why => rfl
  | ok service =>
    simp only [Except.toOption, bind, Option.bind]
    cases asked.call service <;> rfl

/-- An answer leaves the store that the call it stands for leaves. -/
theorem answer_store (request : Request) (route : Route String) (method : Method) :
    (site.answer supply store request route method).2 =
      left supply store (site.callOn? request route method) := by
  fun_cases Site.answer with
  -- the methods that read, and those that no route answers
  | case1 | case2 => rfl
  | case12 => simp_all [callOn?, left]
  -- the bodies that are not read
  | case3 _ _ hbody | case5 _ _ hbody => simp [callOn?, hbody, Except.toOption, left]
  | case7 _ _ _ hbody | case9 _ _ _ hbody => simp [callOn?, hbody, Except.toOption, left]
  | case4 resource _ hbody =>
    simp only [callOn?, hbody]
    exact handler_store supply store resource (.create _)
  | case6 resource _ hbody =>
    simp only [callOn?, hbody]
    exact handler_store supply store resource (.deleteAll _)
  | case8 resource id _ hbody | case10 resource id _ hbody =>
    simp only [callOn?, hbody]
    exact handler_store supply store resource (.update id _)
  | case11 resource id => exact handler_store supply store resource (.delete id)

/-- A request leaves the store that the call it asks for leaves, and the same store when it asks for
none. -/
theorem handle_store (request : Request) :
    (site.handle supply store request).2 = left supply store (site.call? request) := by
  rw [handle, call?]
  cases Route.ofPath? request.path with
  | none => rfl
  | some encoded =>
    cases hmethod : (Method.ofWord? request.method).filter encoded.answers with
    | none => simp [hmethod, left]
    | some method =>
      cases hroute : encoded.decode? with
      | none => simp [hmethod, hroute, left]
      | some route => simp [hmethod, hroute, answer_store]

/-! ### Which services are asked -/

variable {service : Service} {call : Service.Call}

/-- The service that is asked is one of the site. -/
theorem open?_of_onService {resource : String} {asked : Asked}
    (h : site.onService resource asked = some (service, call)) :
    ∃ name, Service.open? site.model site.flavor name = .ok service := by
  obtain ⟨found, hfound, h⟩ := Option.bind_eq_some_iff.mp h
  obtain ⟨_, _, h⟩ := Option.bind_eq_some_iff.mp h
  cases h
  exact ⟨resource, open?_of_service (Outcome.toOption_eq_some.mp hfound)⟩

/-- A call that a request asks for is made on a service of the site's own model. -/
theorem open?_of_call? {request : Request} (h : site.call? request = some (service, call)) :
    ∃ name, Service.open? site.model site.flavor name = .ok service := by
  obtain ⟨encoded, _, h⟩ := Option.bind_eq_some_iff.mp h
  obtain ⟨method, _, h⟩ := Option.bind_eq_some_iff.mp h
  obtain ⟨route, _, h⟩ := Option.bind_eq_some_iff.mp h
  revert h
  fun_cases callOn? with
  | case5 => exact open?_of_onService
  | case6 => exact fun h => nomatch h
  | _ =>
    intro h
    obtain ⟨_, _, h⟩ := Option.bind_eq_some_iff.mp h
    exact open?_of_onService h

end Records.Http.Site
