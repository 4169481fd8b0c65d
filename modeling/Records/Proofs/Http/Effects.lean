import Records.Proofs.Config.Sound
import Records.Proofs.Http.Handlers

/-!
# What a request changes

A handler is refused with the store as it was, or it ends as one call of a service of the site does.
So a request that reads leaves the store, and so does every request whose answer is a failure:
whatever can fail comes before the first change (`failures_and_reads_leave_store`).
-/

set_option autoImplicit false

namespace Records.Http.Site

variable {site : Site} {supply : Supply} {store : Store}

/-- A handler ends refused, with the store as it was, or as a call of one of the services ends. -/
inductive Ends (site : Site) (supply : Supply) (store : Store) :
    Except Fault Json × Store → Prop
  | refused (why : Fault) : Ends site supply store (.error why, store)
  | performed {name : String} {service : Service}
      (opened : Service.open? site.model site.flavor name = .ok service) (call : Service.Call) :
      Ends site supply store
        ((service.perform supply store call).1.map Service.Reply.body,
          (service.perform supply store call).2)

/-- A request is answered with the store as it was, or as a handler ends. -/
inductive Answers (site : Site) (supply : Supply) (store : Store) : Response × Store → Prop
  | kept (response : Response) : Answers site supply store (response, store)
  | concluded {status : Nat} {outcome : Except Fault Json × Store} (success : status < 400)
      (ends : site.Ends supply store outcome) :
      Answers site supply store (site.conclude status outcome)

/-- The service of a route is one that the model opens in the site's flavor. -/
theorem open?_of_service {resource : String} {service : Service}
    (h : site.service resource = .ok service) :
    Service.open? site.model site.flavor resource = .ok service := by
  rw [Site.service] at h
  split at h
  · rename_i found hfound
    cases h
    exact hfound
  · cases h

/-- A handler ends refused, or as the call that it has read. -/
theorem handler_ends (resource : String) (asked : Asked) :
    site.Ends supply store (site.handler supply store resource asked) := by
  rw [handler_eq]
  cases hservice : site.service resource with
  | error why => exact .refused why
  | ok service =>
    show site.Ends supply store (service.serve supply store (asked.call service))
    cases asked.call service with
    | error why => exact .refused why
    | ok call => exact .performed (open?_of_service hservice) call

/-- What a route answers with comes with the store as it was, or is how a handler ends. -/
theorem answer_answers (request : Request) (route : Route String) (method : Method) :
    site.Answers supply store (site.answer supply store request route method) := by
  fun_cases Site.answer with
  | case4 => exact .concluded (by decide) (handler_ends _ (.create _))
  | case6 => exact .concluded (by decide) (handler_ends _ (.deleteAll _))
  | case8 | case10 => exact .concluded (by decide) (handler_ends _ (.update _ _))
  | case11 => exact .concluded (by decide) (handler_ends _ (.delete _))
  -- the methods that read, the bodies that are not read, and the methods that no route answers
  | _ => exact .kept _

/-- What a request is answered with comes with the store as it was, or is how a handler ends. -/
theorem handle_answers (site : Site) (supply : Supply) (store : Store) (request : Request) :
    site.Answers supply store (site.handle supply store request) := by
  rw [handle]
  split
  · exact .kept _
  · split
    · exact .kept _
    · split
      · exact answer_answers _ _ _
      · exact .kept _

/-- An answer with a failure status leaves the store. -/
theorem Answers.store_of_failure {answer : Response × Store} (h : site.Answers supply store answer)
    (hstatus : 400 ≤ answer.1.status) : answer.2 = store := by
  cases h with
  | kept response => rfl
  | concluded success ends =>
    cases ends with
    | refused why => rfl
    | @performed name service opened call =>
      show (service.perform supply store call).2 = store
      cases hreply : (service.perform supply store call).1 with
      | error why => exact Service.perform_of_error hreply
      | ok reply =>
        -- the answer to a reply has the status of a success
        simp only [conclude, hreply, Except.map, respond, Response.json] at hstatus
        omega

/-- A request by `GET` or `HEAD` leaves the store. -/
theorem handle_of_reading (site : Site) (supply : Supply) (store : Store) {request : Request}
    (h : request.method = "GET" ∨ request.method = "HEAD") :
    (site.handle supply store request).2 = store := by
  have hword : Method.ofWord? request.method = some .get ∨
      Method.ofWord? request.method = some .head := by
    rcases h with h | h
    · exact .inl (by rw [h]; rfl)
    · exact .inr (by rw [h]; rfl)
  rw [handle]
  split
  · rfl
  · split
    · rfl
    · rename_i method hmethod
      have hreads : method = .get ∨ method = .head := by
        obtain ⟨hmethod, _⟩ := Option.filter_eq_some_iff.mp hmethod
        rcases hword with hword | hword
        · exact .inl (Option.some.inj (hmethod.symm.trans hword))
        · exact .inr (Option.some.inj (hmethod.symm.trans hword))
      split
      · rcases hreads with rfl | rfl <;> rfl
      · rfl

/-- A request that reads leaves the store as it was, and so does a request that is answered with a
failure; and every call of a service that gives a fault leaves the store as it was. -/
theorem failures_and_reads_leave_store (supply : Supply) (store : Store) :
    (∀ (site : Site) (request : Request),
      request.method = "GET" ∨ request.method = "HEAD" ∨
          400 ≤ (site.handle supply store request).1.status →
        (site.handle supply store request).2 = store) ∧
    ∀ (service : Service) (call : Service.Call) (why : Fault),
      (service.perform supply store call).1 = .error why →
        (service.perform supply store call).2 = store := by
  constructor
  · intro site request h
    rcases h with hget | hhead | hstatus
    · exact site.handle_of_reading supply store (.inl hget)
    · exact site.handle_of_reading supply store (.inr hhead)
    · exact (site.handle_answers supply store request).store_of_failure hstatus
  · intro service call why h
    exact Service.perform_of_error h

/-- A key that cannot be read, late in a list, keeps the posts before it too; and a post that is not
there is not updated. -/
theorem failures_and_reads_leave_store_journal :
    let site : Site := ⟨Config.journal, .api, 1000⟩
    let service : Service := ⟨Config.journal, Config.resolveResource Config.postsDef, .api⟩
    let supply : Supply := ⟨"now", ""⟩
    let store : Store := ⟨[("posts", [[("id", .int 1), ("title", .str "kept")]])]⟩
    let request := Request.to "POST" "/posts/bulk-delete" (some "application/json")
      (some "[[1, true]]")
    let call : Service.Call := .update (.int 2) [("title", .str "changed")]
    ((site.handle supply store request).1.status = 400 ∧
        (site.handle supply store request).2 = store) ∧
      (service.perform supply store call).1 = .error (.notFound .record) ∧
        (service.perform supply store call).2 = store := by
  intro site service supply store request call
  obtain ⟨hrequests, hcalls⟩ := failures_and_reads_leave_store supply store
  have hstatus : (site.handle supply store request).1.status = 400 := by decide +kernel
  have hnone : (store.update supply service.resource (.int 2)
      [("title", .str "changed")]).1.isNone = true := by decide +kernel
  have hfault : (service.perform supply store call).1 = .error (.notFound .record) := by
    show ((Service.requireRow (store.update supply service.resource (.int 2)
      [("title", .str "changed")]).1).map Service.Reply.row) = _
    rw [Option.isNone_iff_eq_none.mp hnone]
    rfl
  exact ⟨⟨hstatus, hrequests site request (.inr (.inr (Nat.le_of_eq hstatus.symm)))⟩,
    hfault, hcalls service call _ hfault⟩

end Records.Http.Site
