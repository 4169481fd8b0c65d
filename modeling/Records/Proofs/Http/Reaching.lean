import Records.Proofs.Config.Sound
import Records.Proofs.Http.Handlers

/-!
# Requests that reach a handler

A request is refused before its resource is looked up, whoever is answered, or it reaches the
handler of a route.  What a handler gives is shown by the flavor of the site, so a failure that it
reports has the form of that flavor (`failure_is_rendered`); a refusal has the same form everywhere
(`handle_of_unreached`, `not_rendered_too_long`).
-/

set_option autoImplicit false

namespace Records

/-- The statuses of faults. -/
theorem Fault.status_mem (why : Fault) : why.status ∈ [400, 404, 422, 500] := by
  cases why with
  | database why =>
    cases why with
    | noRow | poolTimedOut => decide
    | state sqlState =>
      rw [Fault.status]
      · split <;> decide
      · exact fun h => nomatch h
  | config | notFound | invalidDate | invalid | badRequest => simp [Fault.status]

namespace Http

/-- Whether a route belongs to a resource. -/
def Route.isResource {α : Type} : Route α → Bool
  | .health => false
  | .version => false
  | .collection _ => true
  | .bulk _ => true
  | .slug _ _ => true
  | .item _ _ => true

/-- Whether a method asks a route for a page of a resource. -/
def Route.lists {α : Type} (route : Route α) (method : Method) : Bool :=
  match route, method with
  | .collection _, .get | .collection _, .head => true
  | _, _ => false

/-- A response as it is sent for a method: for `HEAD` without its content. -/
def Response.sentFor (response : Response) (method : Method) : Response :=
  if method = .head then response.withoutBody else response

/-- A response is sent with its own status, whatever the method. -/
@[simp]
theorem Response.status_sentFor (response : Response) (method : Method) :
    (response.sentFor method).status = response.status := by
  rw [sentFor]
  split <;> rfl

/-- A body that cannot be read is answered with a failure status. -/
theorem BodyFault.status_ge (why : BodyFault) : 400 ≤ why.status := by
  cases why <;> decide

/-- The body of a request can be read, where a method asks for one at a route. -/
def Request.IsRead (request : Request) (limit : Nat) (route : Route String) (method : Method) :
    Prop :=
  match method, route with
  | .post, .bulk _ => ∃ ids, request.keysBody limit = .ok ids
  | .post, _ | .patch, _ | .put, _ => ∃ body, request.jsonBody limit = .ok body
  | _, _ => True

/-- A request reaches the handler of a route: the route is that of its path and answers its method,
and both the path and the body can be read. -/
structure Request.Reaches (request : Request) (limit : Nat) (encoded : Route (List Char))
    (route : Route String) (method : Method) : Prop where
  path : Route.ofPath? request.path = some encoded
  word : Method.ofWord? request.method = some method
  answered : encoded.answers method = true
  decoded : encoded.decode? = some route
  read : request.IsRead limit route method

/-- A request is not refused before it reaches a handler. -/
def Request.IsHandled (request : Request) (limit : Nat) : Prop :=
  ∃ encoded route method, request.Reaches limit encoded route method

/-- Decoding a route's parameters keeps what kind of route it is and which methods it answers. -/
theorem Route.decode?_kind {encoded : Route (List Char)} {route : Route String}
    (h : encoded.decode? = some route) :
    route.isResource = encoded.isResource ∧
      ∀ method, route.answers method = encoded.answers method := by
  cases encoded with
  | health | version =>
    cases h
    exact ⟨rfl, fun method => by cases method <;> rfl⟩
  | collection resource | bulk resource =>
    obtain ⟨_, _, rfl⟩ := Option.map_eq_some_iff.mp h
    exact ⟨rfl, fun method => by cases method <;> rfl⟩
  | slug resource name | item resource name =>
    rw [decode?] at h
    split at h
    · cases h
      exact ⟨rfl, fun method => by cases method <;> rfl⟩
    · cases h

namespace Site

variable {site : Site} {supply : Supply} {store : Store} {request : Request}
  {encoded : Route (List Char)} {route : Route String} {method : Method}

/-- A request that reaches a handler is answered by it. -/
theorem handle_of_reaches (h : request.Reaches site.bodyLimit encoded route method) :
    site.handle supply store request = site.answer supply store request route method := by
  simp only [handle, h.path, h.word, Option.filter, h.answered, if_true, h.decoded]

/-- A body that cannot be read is refused in one way by all sites of one limit. -/
theorem answer_of_unread {limit : Nat} (answered : route.answers method = true)
    (unread : ¬ request.IsRead limit route method) :
    ∃ why : BodyFault, ∀ site : Site, site.bodyLimit = limit → ∀ supply store,
      site.answer supply store request route method = (refuseBody why, store) := by
  cases method with
  -- these methods carry no body that could fail to be read
  | get | head | delete => exact absurd trivial unread
  | post =>
    cases route with
    | collection resource =>
      cases hbody : request.jsonBody limit with
      | ok body => exact absurd ⟨body, hbody⟩ unread
      | error why =>
        refine ⟨why, ?_⟩
        rintro site rfl supply store
        simp only [answer, hbody]
    | bulk resource =>
      cases hkeys : request.keysBody limit with
      | ok ids => exact absurd ⟨ids, hkeys⟩ unread
      | error why =>
        refine ⟨why, ?_⟩
        rintro site rfl supply store
        simp only [answer, hkeys]
    | _ => cases answered
  | patch | put =>
    cases route with
    | item resource id =>
      cases hbody : request.jsonBody limit with
      | ok body => exact absurd ⟨body, hbody⟩ unread
      | error why =>
        refine ⟨why, ?_⟩
        rintro site rfl supply store
        simp only [answer, hbody]
    | _ => cases answered

/-- A request that reaches no handler is refused alike by all sites of one limit, whatever they
store, and the store is left. -/
theorem handle_of_unreached {limit : Nat}
    (unreached : ¬ request.IsHandled limit) :
    ∃ response : Response, 400 ≤ response.status ∧
      ∀ site : Site, site.bodyLimit = limit → ∀ supply store,
        site.handle supply store request = (response, store) := by
  cases hpath : Route.ofPath? request.path with
  | none => exact ⟨.bare 404, by decide, fun _ _ _ _ => by simp only [handle, hpath]⟩
  | some encoded =>
    cases hmethod : (Method.ofWord? request.method).filter encoded.answers with
    | none =>
      exact ⟨.bare 405, by decide, fun _ _ _ _ => by simp only [handle, hpath, hmethod]⟩
    | some method =>
      cases hdecoded : encoded.decode? with
      | none =>
        refine ⟨(Response.plain 400 .remark).sentFor method, ?_, fun _ _ _ _ => ?_⟩
        · rw [Response.status_sentFor]
          exact Nat.le_refl 400
        · simp only [handle, hpath, hmethod, hdecoded, Response.sentFor]
      | some route =>
        -- path and method are answered, so it is the body that is not read
        obtain ⟨hword, hanswered⟩ := Option.filter_eq_some_iff.mp hmethod
        have unread : ¬ request.IsRead limit route method := fun read =>
          unreached ⟨encoded, route, method, hpath, hword, hanswered, hdecoded, read⟩
        have hroute : route.answers method = true := by
          rw [(Route.decode?_kind hdecoded).2, hanswered]
        obtain ⟨why, hanswer⟩ := answer_of_unread hroute unread
        refine ⟨refuseBody why, why.status_ge, fun site hlimit supply store => ?_⟩
        simp only [handle, hpath, hmethod, hdecoded, hanswer site hlimit]

/-! ### What handlers give -/

/-- The answers of a site and of the same site in another flavor show one outcome, each in its own
way; but each site lists a collection on its own. -/
inductive Paired (site : Site) (flavor : Flavor) (store : Store) (request : Request)
    (route : Route String) (method : Method) : Response × Store → Response × Store → Prop
  | same {status : Nat} (success : status < 400) (other : route.lists method = false)
      (outcome : Except Fault Json × Store) :
      Paired site flavor store request route method
        ((site.respond status outcome.1).sentFor method, outcome.2)
        (((site.withFlavor flavor).respond status outcome.1).sentFor method, outcome.2)
  | listed {resource : String} (collection : route = .collection resource)
      (reading : method = .get ∨ method = .head) :
      Paired site flavor store request route method
        ((site.respond 200 (site.list store resource request.pairs)).sentFor method, store)
        (((site.withFlavor flavor).respond 200
          ((site.withFlavor flavor).list store resource request.pairs)).sentFor method, store)

/-- A handler gives one outcome in both flavors. -/
theorem handler_paired {flavor : Flavor} (supply : Supply) (name : String) (asked : Asked)
    {status : Nat} (success : status < 400) (other : route.lists method = false) :
    site.Paired flavor store request route method
      ((site.respond status (site.handler supply store name asked).1).sentFor method,
        (site.handler supply store name asked).2)
      (((site.withFlavor flavor).respond status
          ((site.withFlavor flavor).handler supply store name asked).1).sentFor method,
        ((site.withFlavor flavor).handler supply store name asked).2) := by
  rw [handler_withFlavor]
  exact .same success other _

/-- Reading answers come with the store as it was, without their body for `HEAD`. -/
theorem answer_of_reading (site : Site) (supply : Supply) (store : Store) (request : Request)
    (route : Route String) (reading : method = .get ∨ method = .head) :
    site.answer supply store request route method =
      ((site.answerRead store route request.pairs).sentFor method, store) := by
  rcases reading with rfl | rfl <;> rfl

/-- Every answer of a resource route has a twin in each flavor. -/
theorem answers_paired (flavor : Flavor) (supply : Supply) (store : Store)
    (resource : route.isResource = true) (answered : route.answers method = true)
    (read : request.IsRead site.bodyLimit route method) :
    site.Paired flavor store request route method
      (site.answer supply store request route method)
      ((site.withFlavor flavor).answer supply store request route method) := by
  cases method with
  | get | head =>
    rw [answer_of_reading _ _ _ _ _ (by simp), answer_of_reading _ _ _ _ _ (by simp)]
    cases route with
    | collection name => exact .listed rfl (by simp)
    | slug name text =>
      exact handler_paired supply name (.rowOfSlug text request.pairs) (by decide) rfl
    | item name text => exact handler_paired supply name (.row text request.pairs) (by decide) rfl
    | bulk name => cases answered
    | health | version => cases resource
  | post =>
    cases route with
    | collection name =>
      -- the body is read alike in both flavors, which share the limit
      obtain ⟨body, hbody⟩ := read
      have htwin : request.jsonBody (site.withFlavor flavor).bodyLimit = .ok body := hbody
      simp only [answer, hbody, htwin]
      exact handler_paired supply name (.create body) (by decide) rfl
    | bulk name =>
      obtain ⟨ids, hids⟩ := read
      have htwin : request.keysBody (site.withFlavor flavor).bodyLimit = .ok ids := hids
      simp only [answer, hids, htwin]
      exact handler_paired supply name (.deleteAll ids) (by decide) rfl
    | _ => cases answered
  | patch | put =>
    cases route with
    | item name text =>
      obtain ⟨body, hbody⟩ := read
      have htwin : request.jsonBody (site.withFlavor flavor).bodyLimit = .ok body := hbody
      simp only [answer, hbody, htwin]
      exact handler_paired supply name (.update text body) (by decide) rfl
    | _ => cases answered
  | delete =>
    cases route with
    | item name text => exact handler_paired supply name (.delete text) (by decide) rfl
    | _ => cases answered

/-- A request that reaches a handler of a resource has paired answers. -/
theorem handle_paired (reaches : request.Reaches site.bodyLimit encoded route method)
    (resource : encoded.isResource = true) (flavor : Flavor) (supply : Supply) (store : Store) :
    site.Paired flavor store request route method (site.handle supply store request)
      ((site.withFlavor flavor).handle supply store request) := by
  obtain ⟨hkind, hanswers⟩ := Route.decode?_kind reaches.decoded
  have htwin : (site.withFlavor flavor).handle supply store request =
      (site.withFlavor flavor).answer supply store request route method :=
    handle_of_reaches reaches
  rw [handle_of_reaches reaches, htwin]
  exact answers_paired flavor supply store (by rw [hkind, resource])
    (by rw [hanswers, reaches.answered]) reaches.read

end Site

/-! ### The form of failures -/

/-- A response shows a failure in the way of a flavor: to a program as an object with a message, to
a browser as the bare reason phrase of its status. -/
def Renders (flavor : Flavor) (response : Response) : Prop :=
  match flavor with
  | .api =>
    response.contentType = some "application/json" ∧
      ∃ message, response.body = .json (.obj [("success", .bool false), ("message", .str message)])
  | .web =>
    response.contentType = some "text/plain" ∧
      response.body = .text (reasonPhrase response.status) ∧ reasonPhrase response.status ≠ ""

/-- A rejection renders its fault in the flavor it is made for. -/
theorem renders_reject (flavor : Flavor) (why : Fault) : Renders flavor (reject flavor why) := by
  have hphrase : ∀ status ∈ [400, 404, 422, 500], reasonPhrase status ≠ "" := by decide
  cases flavor with
  | api => exact ⟨rfl, _, rfl⟩
  | web => exact ⟨rfl, rfl, hphrase _ why.status_mem⟩

namespace Site

variable {site : Site} {request : Request} {encoded : Route (List Char)} {route : Route String}
  {method : Method}

/-- What a site responds with a failing status is the rejection of a fault. -/
theorem respond_of_failed {status : Nat} (success : status < 400) {outcome : Except Fault Json}
    (failed : 400 ≤ (site.respond status outcome).status) :
    ∃ why, outcome = .error why ∧ site.respond status outcome = reject site.flavor why := by
  cases outcome with
  | error why => exact ⟨why, rfl, rfl⟩
  | ok body => exact absurd success (Nat.not_lt.mpr failed)

/-- An answer that has a twin responds to the outcome of some operation with a status of success. -/
theorem Paired.exists_respond {flavor : Flavor} {store : Store} {answer twin : Response × Store}
    (h : site.Paired flavor store request route method answer twin) :
    ∃ status outcome, status < 400 ∧
      answer.1 = (site.respond status outcome).sentFor method := by
  cases h with
  | same success _ outcome => exact ⟨_, outcome.1, success, rfl⟩
  | listed _ _ => exact ⟨200, _, by decide, rfl⟩

/-- A failure that a handler of a resource reports has the form of the flavor; `HEAD` is sent the
same without its content. -/
theorem failure_is_rendered (reaches : request.Reaches site.bodyLimit encoded route method)
    (resource : encoded.isResource = true) (supply : Supply) (store : Store)
    (failed : 400 ≤ (site.handle supply store request).1.status) :
    ∃ response, Renders site.flavor response ∧
      (site.handle supply store request).1 = response.sentFor method := by
  obtain ⟨status, outcome, success, hanswer⟩ :=
    (handle_paired reaches resource site.flavor supply store).exists_respond
  rw [hanswer, Response.status_sentFor] at failed
  obtain ⟨why, _, hreject⟩ := respond_of_failed success failed
  rw [hreject] at hanswer
  exact ⟨reject site.flavor why, renders_reject site.flavor why, hanswer⟩

/-- A list in the place of a post is refused by the handler, which a browser sees as a phrase. -/
theorem failure_is_rendered_journal :
    let site : Site := ⟨Config.journal, .web, 1000⟩
    let request := Request.to "PATCH" "/posts/7" (some "application/json") (some "[1]")
    let answer := (site.handle ⟨"now", ""⟩ ⟨[]⟩ request).1
    answer.status = 400 ∧ ∃ response, Renders .web response ∧ answer = response.sentFor .patch := by
  intro site request answer
  have hbody : request.jsonBody site.bodyLimit = .ok (.arr [.int 1]) := by
    have htext : request.jsonText site.bodyLimit = .ok "[1]" := by decide +kernel
    have hread : Json.readFront "[1]" = .ok (.arr [.int 1]) := by
      simp only [Json.readFront, Written.read, String.reduceToList]
      rfl
    rw [Request.jsonBody, Outcome.bind_of_ok htext, hread]
    rfl
  have reaches : request.Reaches site.bodyLimit (.item "posts".toList "7".toList)
      (.item "posts" "7") .patch :=
    ⟨by decide +kernel, rfl, rfl, by decide +kernel, ⟨_, hbody⟩⟩
  have hstatus : answer.status = 400 := by
    show (site.handle ⟨"now", ""⟩ ⟨[]⟩ request).1.status = 400
    rw [handle_of_reaches reaches, Site.answer, hbody]
    rfl
  exact ⟨hstatus, failure_is_rendered reaches rfl ⟨"now", ""⟩ ⟨[]⟩ (Nat.le_of_eq hstatus.symm)⟩

/-- A body that is too long is refused before the handler of its route, and in no flavor. -/
theorem not_rendered_too_long :
    let request := Request.to "POST" "/posts" (some "application/json") (some "\x7b\x7d")
    let answer := fun flavor =>
      ((⟨Config.journal, flavor, 1⟩ : Site).handle ⟨"now", ""⟩ ⟨[]⟩ request).1
    Route.ofPath? request.path = some (.collection "posts".toList) ∧
      Method.ofWord? request.method = some .post ∧
      (answer .api).status = 413 ∧ ¬ Renders .api (answer .api) ∧
      (answer .web).status = 413 ∧ ¬ Renders .web (answer .web) := by
  intro request answer
  have hpath : Route.ofPath? request.path = some (.collection "posts".toList) := by decide +kernel
  have hword : Method.ofWord? request.method = some .post := rfl
  have hbody : request.jsonBody 1 = .error .tooLong := by
    have htext : request.jsonText 1 = .error .tooLong := by decide +kernel
    rw [Request.jsonBody, htext]
    rfl
  have hdecoded : (Route.collection "posts".toList).decode? = some (.collection "posts") := by
    decide +kernel
  have hrefused : ∀ flavor, answer flavor = .plain 413 .remark := by
    intro flavor
    simp only [answer, handle, hpath, hword, Option.filter, Route.answers, if_true, hdecoded,
      Site.answer, hbody]
    rfl
  refine ⟨hpath, hword, ?_, ?_, ?_, ?_⟩
  · rw [hrefused]
    rfl
  · rw [hrefused]
    rintro ⟨htype, _⟩
    exact absurd htype (by decide)
  · rw [hrefused]
    rfl
  · rw [hrefused]
    rintro ⟨_, hbody, _⟩
    cases hbody

end Site

end Http

end Records
