import Records.Proofs.Query.Assembly
import Records.Proofs.Store.Evaluation
import Records.Service

/-!
# What the trash reveals

Two stores whose resources have the same live rows in the same order cannot be told apart by a query
for live rows: not by its rows, not by what is shown with them, not by a count or an order, and not
by a fault (`trash_reveals_nothing`).  Evaluation reaches stored rows in two ways only, through
visible rows of the root and through related rows, and both pass over the trash.
-/

set_option autoImplicit false

namespace Records.Store

/-- The rows of a resource outside the trash, in order. -/
def liveRows (store : Store) (r : Resource) : List Row :=
  (store.rows r.name).filter (Row.isLive r)

/-- Every resource has the same live rows in two stores. -/
def SameLive (model : Model) (s t : Store) : Prop :=
  ∀ r ∈ model.resources, s.liveRows r = t.liveRows r

section

variable {model : Model} {s t : Store} (same : SameLive model s t)

/-- Related rows are found among the live rows. -/
theorem relatedRows_eq_filter_liveRows (store : Store) (relation : Relation) (target : Resource)
    (row : Row) :
    store.relatedRows relation target row =
      (store.liveRows target).filter (Row.isJoined relation target row) := by
  rw [relatedRows_eq_filter, liveRows, List.filter_filter]
  apply List.filter_congr
  intro child _
  rw [Row.isJoined]
  cases Row.isLive target child <;> simp

include same

/-- Stores with the same live rows have the same related rows. -/
theorem relatedRows_congr {owner target : Resource} {name : String} {relation : Relation}
    (h : model.related owner name = .ok (relation, target)) (row : Row) :
    s.relatedRows relation target row = t.relatedRows relation target row := by
  rw [relatedRows_eq_filter_liveRows, relatedRows_eq_filter_liveRows,
    same target (Model.mem_of_related h)]

/-- A predicate has the same outcome, fault or not, in both stores. -/
theorem satisfiesPredicate_congr (r : Resource) (row : Row) (predicate : Predicate) :
    s.satisfiesPredicate model r row predicate = t.satisfiesPredicate model r row predicate := by
  induction predicate using Predicate.induct generalizing r row with
  | condition column test => rfl
  | date column bound day => rfl
  | contains column term => rfl
  | related name negated clause ih =>
    rw [satisfiesPredicate, satisfiesPredicate]
    cases hrelated : model.related r name with
    | error why => rfl
    | ok found =>
      obtain ⟨relation, target⟩ := found
      -- a related row is tested in each store, and both tests agree on it
      have hchild : (fun child => s.satisfies model target child clause) =
          fun child => t.satisfies model target child clause :=
        funext fun child => satisfies_congr clause fun entry hentry =>
          ih entry hentry target child
      simp only [bind, Except.bind, hchild, relatedRows_congr same hrelated row]
  | count name comparator n =>
    rw [satisfiesPredicate, satisfiesPredicate]
    cases hrelated : model.related r name with
    | error why => rfl
    | ok found =>
      obtain ⟨relation, target⟩ := found
      show Except.ok (comparator.holds (s.relatedRows relation target row).length n) =
        Except.ok (comparator.holds (t.relatedRows relation target row).length n)
      rw [relatedRows_congr same hrelated row]
  | group clause ih =>
    rw [satisfiesPredicate, satisfiesPredicate]
    exact satisfies_congr clause fun entry hentry => ih entry hentry r row

omit same in
/-- Rows on which a test is false without a fault can be left out beforehand. -/
theorem passing_filter {test : Row → Except Fault Bool} {seen : Row → Bool} (rows : List Row)
    (h : ∀ row, seen row = false → test row = .ok false) :
    passing test rows = passing test (rows.filter seen) := by
  induction rows with
  | nil => rfl
  | cons row rest ih =>
    cases hseen : seen row with
    | true => rw [List.filter_cons_of_pos hseen, passing, passing, ih]
    | false =>
      rw [List.filter_cons_of_neg (by simp [hseen]), passing, h row hseen, ih]
      show (passing test (rest.filter seen) >>= fun others => Except.ok others) = _
      cases passing test (rest.filter seen) <;> rfl

/-- Stores with the same live rows match the same rows when the trash is not asked for. -/
theorem matching_congr {r : Resource} (hr : r ∈ model.resources) (query : Query)
    (hlive : query.trashed = .without) :
    s.matching model r query = t.matching model r query := by
  have hmatch : s.isMatch model r query = t.isMatch model r query := by
    funext row
    rw [isMatch, isMatch, satisfies_congr query.clause fun entry _ =>
      satisfiesPredicate_congr same r row entry.2]
  have hunseen : ∀ row, Row.isLive r row = false → t.isMatch model r query row = .ok false := by
    intro row hrow
    rw [isMatch, hlive, isVisible, hrow]
    rfl
  have hrows : (s.rows r.name).filter (Row.isLive r) = (t.rows r.name).filter (Row.isLive r) :=
    same r hr
  rw [matching, matching, hmatch, passing_filter (s.rows r.name) hunseen, hrows,
    ← passing_filter (t.rows r.name) hunseen]

/-- A row is shown in the same way from both stores. -/
theorem project_congr (r : Resource) (query : Query) :
    s.project model r query = t.project model r query := by
  have hadd : s.addRelated model r = t.addRelated model r := by
    funext row shown name
    rw [addRelated, addRelated]
    cases hrelated : model.related r name with
    | error why => rfl
    | ok found =>
      obtain ⟨relation, target⟩ := found
      show Except.ok (Fields.put shown name (s.shownRelated relation target row)) =
        Except.ok (Fields.put shown name (t.shownRelated relation target row))
      rw [shownRelated, shownRelated, relatedRows_congr same hrelated row]
  funext row
  rw [project, project, hadd]

/-- Stores with the same live rows have the same pages. -/
theorem page_congr (query : Query) (hlive : query.trashed = .without) (paging : Paging) :
    s.page model query paging = t.page model query paging := by
  rw [page, page]
  cases hresource : model.requireResource query.resource with
  | error why => rfl
  | ok r =>
    show (s.matching model r query >>= _) = (t.matching model r query >>= _)
    rw [matching_congr same (Model.mem_of_requireResource hresource) query hlive,
      project_congr same r query]

/-- Stores with the same live rows have the same first row. -/
theorem first?_congr (query : Query) (hlive : query.trashed = .without) :
    s.first? model query = t.first? model query := by
  rw [first?, first?]
  cases hresource : model.requireResource query.resource with
  | error why => rfl
  | ok r =>
    show (s.matching model r query >>= _) = (t.matching model r query >>= _)
    rw [matching_congr same (Model.mem_of_requireResource hresource) query hlive,
      project_congr same r query]

/-- Stores with the same live rows have the same listings, faults included. -/
theorem list_congr (service : Service) (hmodel : service.model = model) {params : ListParams}
    (hlive : params.filters.trashed = false) (eager columns : List String) :
    service.list s params eager columns = service.list t params eager columns := by
  rw [Service.list, Service.list]
  cases hlisting : Listing.ofParams service.model service.resource service.flavor params eager
      columns with
  | error why => rfl
  | ok listing =>
    show s.page service.model listing.query listing.paging =
      t.page service.model listing.query listing.paging
    obtain ⟨_, _, trashed, _, _, hfilters, _, _, _, _, rfl⟩ :=
      Listing.ofParams_eq_ok service.model service.resource hlisting
    have htrashed : trashed = .without := by
      rw [(Filtering.trashed_of_compile service.model hfilters).1, hlive]
      rfl
    rw [hmodel]
    exact page_congr same _ htrashed _

/-- Stores with the same live rows have the same first row under a value. -/
theorem firstWith_congr (service : Service) (hmodel : service.model = model) {query : Query}
    (hlive : query.trashed = .without) (column : String) (value : Json) :
    service.firstWith s query column value = service.firstWith t query column value := by
  have hfirst := first?_congr same
    { query with clause := query.clause ++ [(.and, .condition column (.equals value))] } hlive
  rw [Service.firstWith, Service.firstWith, hmodel, hfirst]

/-- Stores with the same live rows show the same under a key. -/
theorem rowOfKey_congr (service : Service) (hmodel : service.model = model) (id : Json)
    (eager columns : List String) :
    service.rowOfKey s id eager columns = service.rowOfKey t id eager columns := by
  rw [Service.rowOfKey, Service.rowOfKey]
  cases hbase : Listing.base service.resource eager columns with
  | error why => rfl
  | ok query =>
    obtain ⟨rfl, _⟩ := Listing.base_eq_ok service.resource hbase
    exact firstWith_congr same service hmodel rfl _ id

/-- Stores with the same live rows show the same under a slug. -/
theorem rowOfSlug_congr (service : Service) (hmodel : service.model = model) (slug : String)
    (eager columns : List String) :
    service.rowOfSlug s slug eager columns = service.rowOfSlug t slug eager columns := by
  rw [Service.rowOfSlug, Service.rowOfSlug]
  cases service.resource.slugColumn with
  | none => rfl
  | some column =>
    cases hbase : Listing.base service.resource eager columns with
    | error why => rfl
    | ok query =>
      obtain ⟨rfl, _⟩ := Listing.base_eq_ok service.resource hbase
      exact firstWith_congr same service hmodel rfl column _

end

/-- Stores with the same live rows answer alike, faults included: every query for live rows, each
of its pages and its first row, every listing that does not ask for the trash, and every look-up by
key or slug. -/
theorem trash_reveals_nothing (model : Model) (s t : Store) (same : SameLive model s t) :
    (∀ query : Query, query.trashed = .without →
      (∀ paging, s.page model query paging = t.page model query paging) ∧
        s.first? model query = t.first? model query) ∧
    ∀ service : Service, service.model = model → ∀ eager columns : List String,
      (∀ params : ListParams, params.filters.trashed = false →
        service.list s params eager columns = service.list t params eager columns) ∧
      (∀ id, service.rowOfKey s id eager columns = service.rowOfKey t id eager columns) ∧
        ∀ slug, service.rowOfSlug s slug eager columns = service.rowOfSlug t slug eager columns := by
  constructor
  · intro query hlive
    exact ⟨page_congr same query hlive, first?_congr same query hlive⟩
  · intro service hmodel eager columns
    refine ⟨?_, ?_, ?_⟩
    · exact fun params hlive => list_congr same service hmodel hlive eager columns
    · exact fun id => rowOfKey_congr same service hmodel id eager columns
    · exact fun slug => rowOfSlug_congr same service hmodel slug eager columns

/-- A trashed post and a trashed comment, in front of the live ones, change no answer. -/
theorem trash_reveals_nothing_journal :
    let live : Store := ⟨[
      ("posts", [[("id", .int 1), ("title", .str "Lean")]]),
      ("comments", [[("id", .int 1), ("post_id", .int 1)]])]⟩
    let full : Store := ⟨[
      ("posts", [
        [("id", .int 1), ("deleted_at", .str "now")],
        [("id", .int 1), ("title", .str "Lean")]]),
      ("comments", [
        [("id", .int 2), ("post_id", .int 1), ("deleted_at", .bool false)],
        [("id", .int 1), ("post_id", .int 1)]])]⟩
    let service : Service := ⟨Config.journal, Config.resolveResource Config.postsDef, .api⟩
    let query : Query := {
      resource := "posts"
      clause := [(.and, .count "comments" .exactly 1)]
      eager := ["comments"] }
    SameLive Config.journal live full ∧
      live.page Config.journal query ⟨1, 10⟩ = full.page Config.journal query ⟨1, 10⟩ ∧
      service.list live { search := some "lean" } [] [] =
        service.list full { search := some "lean" } [] [] ∧
      service.rowOfKey live (.int 1) [] [] = service.rowOfKey full (.int 1) [] [] := by
  intro live full service query
  have same : SameLive Config.journal live full := by
    intro r hr
    rcases List.mem_cons.mp hr with rfl | hr
    · rfl
    · rw [List.mem_singleton.mp hr]
      rfl
  obtain ⟨queries, services⟩ := trash_reveals_nothing Config.journal live full same
  obtain ⟨list, rowOfKey, _⟩ := services service rfl [] []
  exact ⟨same, (queries query rfl).1 _, list _ rfl, rowOfKey _⟩

end Records.Store
