import Records.Proofs.Config.Sound
import Records.Proofs.Http.Handlers
import Records.Proofs.Store.Lookup
import Records.Proofs.Text.Percent
import Records.Proofs.Text.Split

/-!
# Rows under their paths

The path of a row is the name of its resource and its key, each encoded in one segment.  Whatever
the two are, a request for the path is answered by the service of the resource on the key that is
read from the second (`item_answered`); only the word `bulk-delete` in that place is the path of
something else (`not_reached_bulk_delete`).
-/

set_option autoImplicit false

namespace Records

/-- An operation on the row of a key that has to be read first. -/
def Service.atKey (service : Service) (store : Store) (text : String)
    (operation : Json → Except Fault Json × Store) : Except Fault Json × Store :=
  match service.readKey text with
  | .ok id => operation id
  | .error why => (.error why, store)

namespace Http

/-- A rejection has the status of its fault. -/
theorem status_reject (flavor : Flavor) (why : Fault) :
    (reject flavor why).status = why.status := by
  cases flavor <;> rfl

/-- An answer shows what an operation on one row gives: the row under a field of its own, or the
fault with its status; and it leaves the store as the operation does. -/
structure Site.Shows (site : Site) (answer : Response × Store)
    (outcome : Except Fault Json × Store) : Prop where
  store : answer.2 = outcome.2
  row : ∀ row, outcome.1 = .ok row → answer.1 = .json 200 (.obj [("data", row)])
  fault : ∀ why, outcome.1 = .error why →
    answer.1 = reject site.flavor why ∧ answer.1.status = why.status

/-- A request carries a JSON object of at most so many bytes. -/
structure Request.Carries (request : Request) (limit : Nat) (data : Fields) : Prop where
  type : ∃ type, request.contentType = some type ∧ isJsonType type = true
  body : ∃ body, request.body = some body ∧ body.utf8ByteSize ≤ limit ∧
    Json.readFront body = .ok (.obj data)

/-- A request that carries an object within the limits has it as its body. -/
theorem Request.jsonBody_of_carries {request : Request} {limit : Nat} {data : Fields}
    (h : request.Carries (min limit hardBodyLimit) data) :
    request.jsonBody limit = .ok (.obj data) := by
  obtain ⟨type, htype, hjson⟩ := h.type
  obtain ⟨body, hbody, hsize, hread⟩ := h.body
  have htext : request.jsonText limit = .ok body := by
    simp only [jsonText, htype, hbody, hjson]
    rw [if_neg (by simp), if_neg (Nat.not_lt.mpr hsize)]
  rw [jsonBody, Outcome.bind_of_ok htext, hread]
  rfl

namespace Site

variable {site : Site} {name : String} {service : Service} (store : Store) (text : String)

/-- An outcome with its row as the body of an answer. -/
def withBody (outcome : Except Fault Json × Store) : Except Fault Json × Store :=
  (outcome.1.map dataBody, outcome.2)

/-- What an operation is concluded with shows its outcome. -/
theorem conclude_shows (outcome : Except Fault Json × Store) :
    site.Shows (site.conclude 200 (withBody outcome)) outcome := by
  obtain ⟨result, after⟩ := outcome
  cases result with
  | ok row =>
    refine ⟨rfl, fun _ h => ?_, fun _ h => nomatch h⟩
    cases h
    rfl
  | error why =>
    refine ⟨rfl, fun _ h => (nomatch h), fun _ h => ?_⟩
    cases h
    exact ⟨rfl, status_reject _ _⟩

/-- A handler that reads a key and has the service go on with it is answered as the operation on
that key. -/
theorem handler_shows (opened : Service.open? site.model site.flavor name = .ok service)
    (supply : Supply) {asked : Asked} {call : Json → Service.Call}
    {operation : Json → Except Fault Json × Store}
    (read : asked.call service = service.readKey text >>= fun id => .ok (call id))
    (gives : ∀ id, service.perform supply store (call id) =
      ((operation id).1.map .row, (operation id).2)) :
    site.Shows (site.conclude 200 (site.handler supply store name asked))
      (service.atKey store text operation) := by
  have hservice : site.service name = .ok service := by
    rw [Site.service, opened]
  have houtcome : site.handler supply store name asked =
      withBody (service.atKey store text operation) := by
    rw [handler_eq, hservice]
    show service.serve supply store (asked.call service) = _
    rw [read, Service.atKey]
    cases service.readKey text with
    | error why => rfl
    | ok id => exact Service.serve_of_row (gives id)
  rw [houtcome]
  exact conclude_shows _

end Site

section

variable {name text : String} {resource id : List Char}
  (hresource : Text.Encodes name.toList resource) (hid : Text.Encodes text.toList id)

include hresource hid

/-- Two encoded segments lead to an item, but for the one word that leads to bulk deletion. -/
theorem Route.ofPath?_encodes (given : text ≠ "") :
    Route.ofPath? (String.ofList ('/' :: (resource ++ '/' :: id))) =
      some (if text = "bulk-delete" then .bulk resource else .item resource id) := by
  have hsegments : Text.splitAt '/' (resource ++ '/' :: id) = [resource, id] := by
    rw [Text.splitAt_append (Text.slash_not_mem_of_encodes hresource),
      Text.splitAt_of_not_mem (Text.slash_not_mem_of_encodes hid)]
  have hnonempty : id.isEmpty = false := by
    rw [List.isEmpty_eq_false_iff, Ne, Text.encodes_eq_iff hid (by simp)]
    simpa using given
  have hbulk : id = "bulk-delete".toList ↔ text = "bulk-delete" := by
    rw [Text.encodes_eq_iff hid (List.all_eq_true.mp rfl), String.toList_inj]
  rw [Route.ofPath?, String.toList_ofList]
  simp only [hsegments, Route.ofSegments?, hnonempty, hbulk, Bool.false_eq_true, if_false]
  split <;> rfl

/-- The encoded path of an item decodes to the resource and the text that it encodes. -/
theorem Route.decode?_encodes : (Route.item resource id).decode? = some (.item name text) := by
  simp [Route.decode?, Text.decodeSegment?_encodes hresource, Text.decodeSegment?_encodes hid]

/-- A request for an item is answered there by every method that items have. -/
theorem Site.handle_item (site : Site) (supply : Supply) (store : Store) {request : Request}
    (path : Route.ofPath? request.path = some (.item resource id)) {method : Method}
    (word : Method.ofWord? request.method = some method)
    (answers : (Route.item resource id).answers method = true) :
    site.handle supply store request =
      site.answer supply store request (.item name text) method := by
  simp only [handle, path, word, Option.filter, answers, if_true,
    Route.decode?_encodes hresource hid]

end

namespace Site

variable {site : Site} {name : String} {service : Service}

/-- A request for the path of a row is answered by the service of its resource on the key that is
read from the path, whatever characters the name and the key have; but the word `bulk-delete` in the
place of the key leads elsewhere, and none of these methods is answered there. -/
theorem item_answered (opened : Service.open? site.model site.flavor name = .ok service)
    {text : String} (given : text ≠ "") {resource id : List Char}
    (hresource : Text.Encodes name.toList resource) (hid : Text.Encodes text.toList id)
    {request : Request} (path : request.path = String.ofList ('/' :: (resource ++ '/' :: id)))
    (supply : Supply) (store : Store) :
    (text ≠ "bulk-delete" →
      (request.method = "GET" →
        site.Shows (site.handle supply store request)
          (service.atKey store text fun key =>
            (service.rowOfKey store key (QueryParts.ofPairs request.pairs).eager
              (QueryParts.ofPairs request.pairs).columns, store))) ∧
      (request.method = "PATCH" ∨ request.method = "PUT" →
        ∀ data, request.Carries (min site.bodyLimit hardBodyLimit) data →
          site.Shows (site.handle supply store request)
            (service.atKey store text fun key => service.update supply store key data)) ∧
      (request.method = "DELETE" →
        site.Shows (site.handle supply store request)
          (service.atKey store text fun key => service.delete supply store key))) ∧
    (text = "bulk-delete" →
      request.method = "GET" ∨ request.method = "PATCH" ∨ request.method = "PUT" ∨
        request.method = "DELETE" →
      site.handle supply store request = (.bare 405, store)) := by
  have hroute := Route.ofPath?_encodes hresource hid given
  rw [← path] at hroute
  constructor
  · intro hitem
    rw [if_neg hitem] at hroute
    -- every method that an item answers goes to the handler, with the path decoded
    have hhandle : ∀ method, Method.ofWord? request.method = some method →
        (Route.item resource id).answers method = true →
        site.handle supply store request =
          site.answer supply store request (.item name text) method :=
      fun _ => handle_item hresource hid site supply store hroute
    refine ⟨?_, ?_, ?_⟩
    · intro hget
      rw [hhandle .get (by rw [hget]; rfl) rfl]
      show site.Shows (site.conclude 200
        (site.handler supply store name (.row text request.pairs))) _
      exact handler_shows store text opened supply rfl fun _ => rfl
    · intro hmethod data hcarries
      have hanswer : site.handle supply store request =
          site.conclude 200 (site.handler supply store name (.update text (.obj data))) := by
        have hbody := Request.jsonBody_of_carries hcarries
        rcases hmethod with h | h
        · rw [hhandle .patch (by rw [h]; rfl) rfl, answer, hbody]
          rfl
        · rw [hhandle .put (by rw [h]; rfl) rfl, answer, hbody]
          rfl
      rw [hanswer]
      exact handler_shows store text opened supply rfl fun _ => rfl
    · intro hdelete
      rw [hhandle .delete (by rw [hdelete]; rfl) rfl]
      show site.Shows (site.conclude 200 (site.handler supply store name (.delete text))) _
      exact handler_shows store text opened supply rfl fun _ => rfl
  · intro hbulk hmethod
    -- the path is that of the bulk route, which answers none of these methods
    rw [if_pos hbulk] at hroute
    rcases hmethod with h | h | h | h
    all_goals
      simp only [handle, hroute, h]
      rfl

/-- The post `7`, whose key is written with a plus sign. -/
theorem item_answered_journal :
    let site : Site := ⟨Config.journal, .api, 1000⟩
    let service : Service := ⟨Config.journal, Config.resolveResource Config.postsDef, .api⟩
    let store : Store := ⟨[("posts", [[("id", .int 7), ("title", .str "old")]])]⟩
    let request := Request.to "PATCH" "/posts/%2B7" (some "application/json")
      (some "\x7b\"title\": \"new\"\x7d")
    site.Shows (site.handle ⟨"now", ""⟩ store request)
      (service.update ⟨"now", ""⟩ store (.int 7) [("title", .str "new")]) := by
  intro site service store request
  have opened : Service.open? site.model site.flavor "posts" = .ok service := rfl
  have hresource : Text.Encodes "posts".toList "posts".toList :=
    Text.encodes_self (List.all_eq_true.mp rfl)
  have hid : Text.Encodes "+7".toList "%2B7".toList := by
    show Text.Encodes ['+', '7'] ([['%', '2', 'B']].flatten ++ ['7'])
    exact .bytes rfl (.cons ⟨'2', 'B', rfl, rfl, rfl⟩ .nil) (.plain rfl .nil)
  have hread : Json.readFront "\x7b\"title\": \"new\"\x7d" = .ok (.obj [("title", .str "new")]) := by
    simp only [Json.readFront, Written.read, String.reduceToList]
    rfl
  have hcarries : request.Carries (min site.bodyLimit hardBodyLimit) [("title", .str "new")] :=
    ⟨⟨_, rfl, by decide +kernel⟩, ⟨_, rfl, by decide, hread⟩⟩
  have path : request.path = String.ofList ('/' :: ("posts".toList ++ '/' :: "%2B7".toList)) := rfl
  obtain ⟨hitem, _⟩ := item_answered opened (by decide) hresource hid path ⟨"now", ""⟩ store
  exact (hitem (by decide)).2.1 (.inl rfl) _ hcarries

/-- A note with the key `bulk-delete` is found by its key, but not under its path. -/
theorem not_reached_bulk_delete :
    let r := Config.resolveResource { name := "notes", table := "notes", columns := [.plain "id"] }
    let site : Site := ⟨⟨[r]⟩, .api, 1000⟩
    let service : Service := ⟨⟨[r]⟩, r, .api⟩
    let row : Row := [("id", .str "bulk-delete")]
    let store : Store := ⟨[("notes", [row])]⟩
    Text.Encodes "bulk-delete".toList "bulk-delete".toList ∧
      service.readKey "bulk-delete" = .ok (.str "bulk-delete") ∧
      service.rowOfKey store (.str "bulk-delete") [] [] = .ok (.obj row) ∧
      (site.handle ⟨"now", ""⟩ store (Request.to "GET" "/notes/bulk-delete" none none)).1.status =
        405 := by
  intro r site service row store
  have hrow : service.rowOfKey store (.str "bulk-delete") [] [] = .ok (.obj row) :=
    (Service.rowOfKey_eq_find? store rfl rfl rfl).trans rfl
  exact ⟨Text.encodes_self (List.all_eq_true.mp rfl), rfl, hrow, rfl⟩

end Site

end Http

end Records
