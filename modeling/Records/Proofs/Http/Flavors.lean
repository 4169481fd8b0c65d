import Records.Proofs.Http.Reaching
import Records.Proofs.Query.Assembly
import Records.Proofs.Store.Pages

/-!
# The two flavors side by side

A flavor decides how a fault is shown and which parameter gives the size of a page, and nothing
else. A listing faults in every flavor alike, or shows pages of one answer (`list_flavors`); every
other request has one outcome.  So two sites that differ in their flavor alone keep equal stores
under the same requests, and answer each of them in parallel (`flavors_in_parallel`).
-/

set_option autoImplicit false

namespace Records

/-- The flavor of a listing decides the size of its page alone. -/
theorem Listing.ofParams_flavor (model : Model) (r : Resource) (flavor other : Flavor)
    (params : ListParams) (eager columns : List String) :
    ofParams model r other params eager columns =
      (ofParams model r flavor params eager columns).map fun listing =>
        { listing with paging := ⟨params.pageNumber, params.pageSize other⟩ } := by
  simp only [ofParams, Outcome.map_bind]
  rfl

/-- The page that a flavor shows of an answer. -/
def ListParams.pageIn (params : ListParams) (flavor : Flavor) (shown : List Json) (total : Nat) :
    Page Json :=
  let paging : Paging := ⟨params.pageNumber, params.pageSize flavor⟩
  Page.of ((shown.drop paging.offset).take paging.perPage) total paging

/-- Over a sound model a service faults in every flavor alike, or shows a page of one answer. -/
theorem Service.list_flavors {model : Model} (sound : model.Sound) {r : Resource}
    (hr : r ∈ model.resources) (store : Store) (params : ListParams) (eager columns : List String) :
    (∃ why, ∀ flavor, list ⟨model, r, flavor⟩ store params eager columns = .error why) ∨
      ∃ shown total, ∀ flavor, list ⟨model, r, flavor⟩ store params eager columns =
        .ok (params.pageIn flavor shown total) := by
  cases hquery : Listing.ofParams model r .api params eager columns with
  | error why =>
    refine .inl ⟨why, fun flavor => ?_⟩
    rw [list, Listing.ofParams_flavor model r .api flavor, hquery]
    rfl
  | ok listing =>
    have hlist : ∀ flavor, list ⟨model, r, flavor⟩ store params eager columns =
        store.page model listing.query ⟨params.pageNumber, params.pageSize flavor⟩ := by
      intro flavor
      rw [list, Listing.ofParams_flavor model r .api flavor, hquery]
      rfl
    obtain ⟨_, _, _, _, _, _, _, _, _, hrelations, hlisting⟩ :=
      Listing.ofParams_eq_ok model r hquery
    have hresource : model.requireResource listing.query.resource = .ok r := by
      rw [hlisting]
      exact sound.requireResource_name hr
    have heager : ∀ name ∈ listing.query.eager, ∃ found, model.related r name = .ok found := by
      rw [hlisting]
      exact fun name hname => sound.exists_related hr (hrelations name hname)
    rcases Store.page_cases model store r listing.query hresource heager with
      ⟨why, hpage⟩ | ⟨shown, total, hpage⟩
    · exact .inl ⟨why, fun flavor => (hlist flavor).trans (hpage _)⟩
    · exact .inr ⟨shown, total, fun flavor => (hlist flavor).trans (hpage _)⟩

namespace Http

/-- Over a sound model a collection is listed with one fault in every flavor, or with pages of one
answer. -/
theorem Site.list_flavors {model : Model} (sound : model.Sound) (limit : Nat) (store : Store)
    (resource : String) (pairs : List (String × String)) :
    (∃ why, ∀ flavor, list ⟨model, flavor, limit⟩ store resource pairs = .error why) ∨
      ∃ params shown total, (QueryParts.ofPairs pairs).params = .ok params ∧
        ∀ flavor, list ⟨model, flavor, limit⟩ store resource pairs =
          .ok (pageBody (params.pageIn flavor shown total)) := by
  cases hr : model.requireResource resource with
  | error why =>
    refine .inl ⟨.notFound (.resource resource), fun flavor => ?_⟩
    rw [list, service, Service.open?, hr]
    rfl
  | ok r =>
    -- the parameters are read before the flavor has a say
    have hlist : ∀ flavor, list ⟨model, flavor, limit⟩ store resource pairs =
        (QueryParts.ofPairs pairs).params >>= fun params =>
          (Service.list ⟨model, r, flavor⟩ store params (QueryParts.ofPairs pairs).eager
            (QueryParts.ofPairs pairs).columns).map pageBody := by
      intro flavor
      rw [list, service, Service.open?, hr]
      rfl
    cases hparams : (QueryParts.ofPairs pairs).params with
    | error why => exact .inl ⟨why, fun flavor => by rw [hlist, hparams]; rfl⟩
    | ok params =>
      rcases Service.list_flavors sound (Model.mem_of_requireResource hr) store params
        (QueryParts.ofPairs pairs).eager (QueryParts.ofPairs pairs).columns with
        ⟨why, hfaults⟩ | ⟨shown, total, hpages⟩
      · exact .inl ⟨why, fun flavor => by rw [hlist, Outcome.bind_of_ok hparams, hfaults]; rfl⟩
      · refine .inr ⟨params, shown, total, rfl, fun flavor => ?_⟩
        rw [hlist, Outcome.bind_of_ok hparams, hpages]
        rfl

/-! ### Answers in parallel -/

/-- A request asks for a page of a resource. -/
def Request.IsListing (request : Request) : Prop :=
  request.method = "GET" ∧ ∃ resource, Route.ofPath? request.path = some (.collection resource)

/-- What a request is answered for a program and what for a browser: the statuses and the stores
after it are equal.  Successes show the same, but a listing a page of the flavor's size; a fault is
shown in the way of each flavor; and before a handler there is no flavor. -/
structure InParallel (limit : Nat) (request : Request) (api web : Response × Store) : Prop where
  status : api.1.status = web.1.status
  store : api.2 = web.2
  same : api.1.status < 400 → ¬ request.IsListing → api.1 = web.1
  listed : api.1.status < 400 → request.IsListing → ∃ params p q,
    (QueryParts.ofPairs request.pairs).params = .ok params ∧
      api.1 = .json 200 (pageBody p) ∧ web.1 = .json 200 (pageBody q) ∧
      p.perPage = params.pageSize .api ∧ q.perPage = params.pageSize .web ∧
      p.total = q.total ∧ p.currentPage = q.currentPage ∧
      (params.pageSize .api = params.pageSize .web → p = q)
  fault : 400 ≤ api.1.status → request.IsHandled limit → ∃ (why : Fault) (method : Method),
    Method.ofWord? request.method = some method ∧
      api.1 = (Response.json why.status
        (.obj [("success", .bool false), ("message", .str (shownMessage why))])).sentFor method ∧
      web.1 = (Response.plain why.status (.text (reasonPhrase why.status))).sentFor method
  refused : ¬ request.IsHandled limit → api.1 = web.1

section

variable {limit : Nat} {request : Request} {encoded : Route (List Char)} {route : Route String}
  {method : Method}

/-- The only word for the method that reads is `GET`. -/
theorem Method.ofWord?_eq_get {word : String} : ofWord? word = some .get ↔ word = "GET" := by
  constructor
  · intro h
    by_contra hword
    rw [ofWord?, if_neg hword] at h
    split_ifs at h <;> cases h
  · rintro rfl
    rfl

/-- Among the requests that reach a handler, the listings are those that `GET` a collection. -/
theorem Request.Reaches.isListing_iff (h : request.Reaches limit encoded route method) :
    request.IsListing ↔ method = .get ∧ ∃ resource, route = .collection resource := by
  obtain ⟨hpath, hword, _, hdecoded, _⟩ := h
  rw [Request.IsListing, ← Method.ofWord?_eq_get, hword, hpath, Option.some_inj]
  refine and_congr_right fun _ => ?_
  constructor
  · rintro ⟨resource, hresource⟩
    cases hresource
    obtain ⟨name, _, rfl⟩ := Option.map_eq_some_iff.mp hdecoded
    exact ⟨name, rfl⟩
  · rintro ⟨resource, rfl⟩
    cases encoded with
    | collection name => exact ⟨name, rfl⟩
    | health | version => cases hdecoded
    | bulk name => simp [Route.decode?] at hdecoded
    | slug name text | item name text =>
      rw [Route.decode?] at hdecoded
      split at hdecoded <;> cases hdecoded

variable {store : Store}

/-- One answer in both flavors, which is not a fault of a handler and shows no page. -/
theorem InParallel.of_same {response : Response}
    (handled : request.IsHandled limit → response.status < 400)
    (other : response.status < 400 → ¬ request.IsListing) :
    InParallel limit request (response, store) (response, store) where
  status := rfl
  store := rfl
  same _ _ := rfl
  listed success listing := absurd listing (other success)
  fault failed reached := absurd (handled reached) (Nat.not_lt.mpr failed)
  refused _ := rfl

/-- One fault of a handler, shown in each flavor. -/
theorem InParallel.of_fault (reaches : request.Reaches limit encoded route method) (why : Fault) :
    InParallel limit request ((reject .api why).sentFor method, store)
      ((reject .web why).sentFor method, store) := by
  have hfailed : ¬ why.status < 400 := by
    have hmem := why.status_mem
    grind
  have hstatus : ∀ flavor, ((reject flavor why).sentFor method).status = why.status := by
    intro flavor
    rw [Response.status_sentFor]
    cases flavor <;> rfl
  exact {
    status := (hstatus .api).trans (hstatus .web).symm
    store := rfl
    same := fun success => absurd (hstatus .api ▸ success) hfailed
    listed := fun success => absurd (hstatus .api ▸ success) hfailed
    fault := fun _ _ => ⟨why, method, reaches.word, rfl, rfl⟩
    refused := fun unreached => absurd ⟨encoded, route, method, reaches⟩ unreached }

end

namespace Site

variable {model : Model} {limit : Nat} {request : Request} {encoded : Route (List Char)}
  {route : Route String} {method : Method}

/-- A listing is answered in parallel. -/
theorem list_inParallel (sound : model.Sound) (reaches : request.Reaches limit encoded route method)
    {resource : String} (collection : route = .collection resource)
    (reading : method = .get ∨ method = .head) (store : Store) :
    let answer := fun flavor : Flavor =>
      ((respond ⟨model, flavor, limit⟩ 200
        (list ⟨model, flavor, limit⟩ store resource request.pairs)).sentFor method, store)
    InParallel limit request (answer .api) (answer .web) := by
  rcases list_flavors sound limit store resource request.pairs with
    ⟨why, hlist⟩ | ⟨params, shown, total, hparams, hlist⟩
  · simp only [hlist]
    exact .of_fault reaches why
  · simp only [hlist]
    rcases reading with rfl | rfl
    · have listing : request.IsListing := reaches.isListing_iff.mpr ⟨rfl, resource, collection⟩
      -- the page depends on the flavor by its size alone
      have same : params.pageSize .api = params.pageSize .web →
          params.pageIn .api shown total = params.pageIn .web shown total := by
        intro hsize
        rw [ListParams.pageIn, ListParams.pageIn, hsize]
      exact {
        status := rfl
        store := rfl
        same := fun _ other => absurd listing other
        listed := fun _ _ => ⟨params, params.pageIn .api shown total,
          params.pageIn .web shown total, hparams, rfl, rfl, rfl, rfl, rfl, rfl, same⟩
        fault := fun failed => absurd failed (show ¬ 400 ≤ 200 by decide)
        refused := fun unreached => absurd ⟨encoded, route, .get, reaches⟩ unreached }
    · -- without content, the pages of all sizes look the same
      refine .of_same (fun _ => show 200 < 400 by decide) fun _ listing => ?_
      cases (reaches.isListing_iff.mp listing).1

/-- Answers that show one outcome, each in its own way, are in parallel. -/
theorem Paired.inParallel (sound : model.Sound)
    (reaches : request.Reaches limit encoded route method) {store : Store}
    {answer twin : Response × Store}
    (h : Paired ⟨model, .api, limit⟩ .web store request route method answer twin) :
    InParallel limit request answer twin := by
  cases h with
  | listed collection reading => exact list_inParallel sound reaches collection reading store
  | @same status success other outcome =>
    obtain ⟨outcome, after⟩ := outcome
    cases outcome with
    | error why => exact .of_fault reaches why
    | ok body =>
      have hstatus : ((Response.json status body).sentFor method).status = status :=
        Response.status_sentFor (.json status body) method
      refine .of_same (fun _ => Nat.lt_of_le_of_lt (Nat.le_of_eq hstatus) success) fun _ listing => ?_
      obtain ⟨rfl, resource, rfl⟩ := reaches.isListing_iff.mp listing
      cases other

variable (model) in
/-- What is not about a resource is answered alike. -/
theorem handle_of_common (reaches : request.Reaches limit encoded route method)
    (common : encoded.isResource = false) :
    ∃ body, ∀ flavor supply store, handle ⟨model, flavor, limit⟩ supply store request =
      ((Response.json 200 body).sentFor method, store) := by
  have hreading : method = .get ∨ method = .head := by
    have hanswered := reaches.answered
    cases encoded <;> cases method <;> simp_all [Route.isResource, Route.answers]
  have hanswer : ∀ flavor supply store, handle ⟨model, flavor, limit⟩ supply store request =
      ((answerRead ⟨model, flavor, limit⟩ store route request.pairs).sentFor method, store) := by
    intro flavor supply store
    let site : Site := ⟨model, flavor, limit⟩
    have reached : request.Reaches site.bodyLimit encoded route method := reaches
    exact (handle_of_reaches reached).trans (answer_of_reading site supply store request _ hreading)
  cases encoded with
  | health =>
    cases reaches.decoded
    exact ⟨.obj [("status", .str "ok")], hanswer⟩
  | version =>
    cases reaches.decoded
    exact ⟨versionBody, hanswer⟩
  | _ => cases common

/-- Every request is answered in parallel. -/
theorem handle_inParallel (sound : model.Sound) (limit : Nat) (supply : Supply) (store : Store)
    (request : Request) :
    InParallel limit request (handle ⟨model, .api, limit⟩ supply store request)
      (handle ⟨model, .web, limit⟩ supply store request) := by
  by_cases handled : request.IsHandled limit
  · obtain ⟨encoded, route, method, reaches⟩ := handled
    cases hresource : encoded.isResource with
    | true =>
      let api : Site := ⟨model, .api, limit⟩
      have reached : request.Reaches api.bodyLimit encoded route method := reaches
      exact (handle_paired reached hresource .web supply store).inParallel sound reaches
    | false =>
      obtain ⟨body, hanswer⟩ := handle_of_common model reaches hresource
      rw [hanswer, hanswer]
      refine .of_same (fun _ => ?_) fun _ listing => ?_
      · rw [Response.status_sentFor]
        show 200 < 400
        decide
      · obtain ⟨_, resource, rfl⟩ := reaches.isListing_iff.mp listing
        rw [← (Route.decode?_kind reaches.decoded).1] at hresource
        cases hresource
  · obtain ⟨response, failed, hrefused⟩ := handle_of_unreached handled
    rw [hrefused _ rfl, hrefused _ rfl]
    exact .of_same (fun reached => absurd reached handled)
      fun success => absurd success (Nat.not_lt.mpr failed)

/-- The store that a site leaves after some requests, each with what it takes from outside. -/
def run (site : Site) (store : Store) (steps : List (Supply × Request)) : Store :=
  steps.foldl (fun store step => (site.handle step.1 store step.2).2) store

/-- Requests one after another leave the same store in both flavors. -/
theorem run_flavors (sound : model.Sound) (limit : Nat) (store : Store)
    (steps : List (Supply × Request)) :
    run ⟨model, .api, limit⟩ store steps = run ⟨model, .web, limit⟩ store steps := by
  induction steps generalizing store with
  | nil => rfl
  | cons step rest ih =>
    -- after the first step the sites have one store, so the rest of the run starts from it
    have hstep := (handle_inParallel sound limit step.1 store step.2).store
    rw [run, run, List.foldl_cons, List.foldl_cons, hstep]
    exact ih _

/-- Sites of one resolved model that differ in their flavor alone keep equal stores under the same
requests, whatever they ask, and answer each of them in parallel. -/
theorem flavors_in_parallel {defs : Definitions} (resolved : Config.resolve defs = .ok model)
    (limit : Nat) (store : Store) (earlier : List (Supply × Request)) (supply : Supply)
    (request : Request) :
    let api : Site := ⟨model, .api, limit⟩
    let web : Site := ⟨model, .web, limit⟩
    api.run store earlier = web.run store earlier ∧
      InParallel limit request (api.handle supply (api.run store earlier) request)
        (web.handle supply (web.run store earlier) request) := by
  intro api web
  have sound : model.Sound := Config.sound_of_resolve resolved
  have hstores : api.run store earlier = web.run store earlier :=
    run_flavors sound limit store earlier
  refine ⟨hstores, ?_⟩
  rw [← hstores]
  exact handle_inParallel sound limit supply _ request

/-- A post that was deleted is looked up in vain in both flavors. -/
theorem flavors_in_parallel_journal :
    let api : Site := ⟨Config.journal, .api, 1000⟩
    let web : Site := ⟨Config.journal, .web, 1000⟩
    let store : Store := ⟨[("posts", [[("id", .int 1), ("title", .str "old")]])]⟩
    let earlier : List (Supply × Request) :=
      [(⟨"monday", ""⟩, Request.to "DELETE" "/posts/1" none none)]
    let request := Request.to "GET" "/posts/1" none none
    let answer := fun site : Site => site.handle ⟨"tuesday", ""⟩ (site.run store earlier) request
    Config.resolve ⟨[Config.postsDef, Config.commentsDef]⟩ = .ok Config.journal ∧
      (answer api).1.status = 404 ∧ InParallel 1000 request (answer api) (answer web) := by
  intro api web store earlier request answer
  have hstatus : (answer api).1.status = 404 := by decide +kernel
  exact ⟨Config.resolve_journal, hstatus,
    (flavors_in_parallel Config.resolve_journal 1000 store earlier ⟨"tuesday", ""⟩ request).2⟩

end Site

end Http
end Records
