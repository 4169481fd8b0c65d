import Records.Proofs.Query.Assembly
import Records.Proofs.Store.Pages

/-!
# What a listing serves

A listing is four questions put to each stored row, each answered on its own: whether the row is on
the side of the trash that is listed, whether a search field contains the term, whether the filters
hold, and whether the numbers of related rows pass.  The assembled query serves exactly the rows
that pass all four (`page_of_listing`), however its groups are joined.
-/

set_option autoImplicit false

namespace Records.Store

variable (model : Model) (store : Store) (r : Resource)

/-- Whether a row is in the trash when `trashed` is set, and outside it otherwise; a resource
without a trash mark has all its rows on both sides. -/
def inScope (trashed : Bool) (row : Row) : Bool :=
  match r.softDeleteColumn with
  | some column => (Row.present? row column).isSome == trashed
  | none => true

/-- Whether the text of a column contains a term. -/
def columnContains (row : Row) (column term : String) : Bool :=
  ((Fields.get? row column).bind Json.text?).any fun text => containsTerm term text

/-- Whether a search field contains a term: a column, or a column of some live related row. -/
def fieldContains (row : Row) (term field : String) : Bool :=
  match Text.cutFirst '.' field.toList with
  | none => columnContains row field term
  | some (name, column) =>
    match model.related r (String.ofList name) with
    | .ok (relation, target) =>
      (store.relatedRows relation target row).any fun child =>
        columnContains child (String.ofList column) term
    | .error _ => false

/-- Whether some search field contains the term, if there are a term and search fields. -/
def passesSearch (search : Option String) (row : Row) : Bool :=
  match search with
  | none => true
  | some term =>
    term.isEmpty || r.searchable.isEmpty || r.searchable.any (store.fieldContains model r row term)

/-- Whether the clause of the filters alone is empty or holds. -/
def passesFilters (filters : Filters) (row : Row) : Bool :=
  match Filtering.compile model r filters with
  | .ok (clause, _) => clause.isEmpty || passes (store.satisfies model r row clause)
  | .error _ => false

/-- Whether the number of live related rows is within a bound. -/
def passesCount (row : Row) (bound : CountBound) : Bool :=
  match model.related r bound.relation with
  | .ok (relation, target) =>
    bound.comparator.holds (store.relatedRows relation target row).length bound.count
  | .error _ => false

/-- Whether, of the bounds cut before every one that begins an alternative, the first aside, some
block holds, if there are bounds. -/
def passesCounts (bounds : List CountBound) (row : Row) : Bool :=
  bounds.isEmpty ||
    (joinedRuns CountBound.disjoin bounds).any fun run => run.all (store.passesCount model r row)

/-- Whether a row passes everything a listing asks. -/
def isListed (params : ListParams) (row : Row) : Bool :=
  inScope r params.filters.trashed row && store.passesSearch model r params.search row &&
    store.passesFilters model r params.filters row && store.passesCounts model r params.counts row

/-- A row is visible to a listing when it is inside or outside the trash as asked. -/
theorem isVisible_eq_inScope (trashed : Bool) (row : Row)
    (h : trashed = true → r.softDeleteColumn ≠ none) :
    isVisible r (if trashed then .only else .without) row = inScope r trashed row := by
  cases hcolumn : r.softDeleteColumn with
  | none =>
    cases trashed with
    | false => simp [isVisible, inScope, Row.isLive, hcolumn]
    | true => exact absurd hcolumn (h rfl)
  | some column =>
    cases trashed <;> cases hvalue : Row.present? row column <;>
      simp [isVisible, inScope, Row.isLive, hcolumn, hvalue]

/-- The predicate for a searched field holds when the field contains the term. -/
theorem holds_predicateOfField (row : Row) (term field : String) :
    store.holds model r row (Listing.predicateOfField term field) =
      store.fieldContains model r row term field := by
  rw [fieldContains, Listing.predicateOfField]
  cases hcut : Text.cutFirst '.' field.toList with
  | none => rfl
  | some parts =>
    obtain ⟨name, column⟩ := parts
    cases hrelated : model.related r (String.ofList name) with
    | error why => simp [holds, satisfiesPredicate, hrelated, bind, Except.bind, passes]
    | ok found =>
      obtain ⟨relation, target⟩ := found
      have hclause : Clause.Resolves model target [(.and, .contains (String.ofList column) term)] :=
        ⟨trivial, trivial⟩
      simp only [hrelated]
      rw [holds_related model store r row hrelated hclause, Bool.bne_false]
      refine List.any_congr rfl fun child => ?_
      rw [Clause.value_eq_all _ _ (by simp), List.all_cons, List.all_nil, Bool.and_true]
      rfl

/-- The search group holds when the search passes. -/
theorem value_entriesOfSearch (row : Row) (search : Option String) :
    Clause.value (store.holds model r row) (Listing.entriesOfSearch r search) =
      store.passesSearch model r search row := by
  cases search with
  | none => rfl
  | some term =>
    rw [Listing.entriesOfSearch, passesSearch]
    by_cases hterm : term.isEmpty = true
    · simp [hterm, Clause.value]
    · rw [if_neg hterm, Clause.value_eq_any _ _ (by simp), List.any_map, List.isEmpty_map,
        Bool.eq_false_iff.mpr hterm, Bool.false_or]
      congr 1
      exact List.any_congr rfl fun field => holds_predicateOfField model store r row term field

/-- The predicate for a bound on a count holds when the row passes it. -/
theorem holds_entryOfBound (row : Row) (bound : CountBound) :
    store.holds model r row (Listing.entryOfBound bound).2 =
      store.passesCount model r row bound := by
  rw [passesCount]
  cases hrelated : model.related r bound.relation with
  | error why =>
    simp [Listing.entryOfBound, holds, satisfiesPredicate, hrelated, bind, Except.bind, passes]
  | ok found => exact holds_count model store r row hrelated

/-- The counts group holds when the counts pass. -/
theorem value_entriesOfCounts (row : Row) (bounds : List CountBound) :
    Clause.value (store.holds model r row) (bounds.map Listing.entryOfBound) =
      store.passesCounts model r bounds row := by
  have hopens : ∀ bound : CountBound,
      decide ((Listing.entryOfBound bound).1 = .or) = bound.disjoin := by
    intro bound
    cases hdisjoin : bound.disjoin <;> simp [Listing.entryOfBound, hdisjoin]
  rw [Clause.value, Clause.runs, joinedRuns_map, List.any_map, List.isEmpty_map, passesCounts]
  simp only [hopens]
  congr 1
  refine List.any_congr rfl fun block => ?_
  rw [Function.comp_apply, List.all_map]
  exact List.all_congr rfl fun bound => holds_entryOfBound model store r row bound

/-- The filters group holds when the filters pass. -/
theorem value_filters (columned : r.Columned model) (row : Row) {filters : Filters}
    {clause : Clause} {trashed : Trashed}
    (h : Filtering.compile model r filters = .ok (clause, trashed)) :
    Clause.value (store.holds model r row) clause = store.passesFilters model r filters row := by
  have hresolves : Clause.Resolves model r clause :=
    (Filtering.compile_wellFormed columned.timestamp (Nat.le_refl _) h).resolves
  rw [passesFilters, h]
  simp only [satisfies_of_resolves model store r row clause hresolves]
  cases clause with
  | nil => rfl
  | cons entry rest => rfl

/-- Groups joined by `and` hold when each does. -/
theorem value_addGroup (row : Row) (clause other : Clause)
    (hand : ∀ entry ∈ clause, entry.1 = .and) (hother : Clause.Resolves model r other) :
    Clause.value (store.holds model r row) (Clause.addGroup clause .and other) =
      (Clause.value (store.holds model r row) clause &&
        Clause.value (store.holds model r row) other) := by
  cases other with
  | nil => simp [Clause.addGroup, Clause.value]
  | cons entry rest =>
    have hand' : ∀ entry' ∈ clause ++ [(Joiner.and, Predicate.group (entry :: rest))],
        entry'.1 = .and := by
      intro entry' hentry'
      rcases List.mem_append.mp hentry' with h | h
      · exact hand entry' h
      · rw [List.mem_singleton.mp h]
    show Clause.value _ (clause ++ [(.and, .group (entry :: rest))]) = _
    rw [Clause.value_eq_all _ _ hand', Clause.value_eq_all _ _ hand, List.all_append,
      List.all_cons, List.all_nil, Bool.and_true, holds_group model store r row hother]

/-- A group that is added with `and` leaves every entry joined so. -/
theorem and_of_mem_addGroup (clause other : Clause) (hand : ∀ entry ∈ clause, entry.1 = .and) :
    ∀ entry ∈ Clause.addGroup clause .and other, entry.1 = .and := by
  intro entry hentry
  rw [Clause.addGroup] at hentry
  split at hentry
  · exact hand entry hentry
  · rcases List.mem_append.mp hentry with h | h
    · exact hand entry h
    · rw [List.mem_singleton.mp h]

/-- A row answers the assembled query when it passes everything that the listing asks. -/
theorem answers_eq_isListed (sound : model.Sound) (hr : r ∈ model.resources)
    (columned : r.Columned model) {flavor : Flavor} {params : ListParams}
    {eager columns : List String} {listing : Listing}
    (h : Listing.ofParams model r flavor params eager columns = .ok listing) (row : Row) :
    store.answers model r listing.query row = store.isListed model r params row := by
  obtain ⟨search, filters, trashed, order, hsearch, hfilters, _, _, _, _, rfl⟩ :=
    Listing.ofParams_eq_ok model r h
  have hresolves := Listing.ofParams_resolves sound hr columned h
  simp only [Clause.resolves_addGroup] at hresolves
  obtain ⟨⟨⟨_, hsearchResolves⟩, hfiltersResolves⟩, hcountsResolves⟩ := hresolves
  obtain rfl := Listing.searchClause_eq_ok r hsearch
  have hnone : ∀ entry ∈ ([] : Clause), entry.1 = .and := by simp
  obtain ⟨htrashed, hcolumn⟩ := Filtering.trashed_of_compile model hfilters
  rw [answers, isListed]
  simp only []
  rw [value_addGroup model store r row _ _
      (and_of_mem_addGroup _ _ (and_of_mem_addGroup _ _ hnone)) hcountsResolves,
    value_addGroup model store r row _ _ (and_of_mem_addGroup _ _ hnone) hfiltersResolves,
    value_addGroup model store r row _ _ hnone hsearchResolves, value_entriesOfSearch,
    value_filters model store r columned row hfilters, value_entriesOfCounts,
    htrashed, isVisible_eq_inScope r _ row hcolumn]
  simp [Clause.value, Bool.and_assoc]

/-- A listing that is accepted is answered, whatever the store holds: its rows are those that pass
all four questions, they are all counted, and each page is the part at its place of the one list
that shows them. -/
theorem page_of_listing {defs : Definitions} {model : Model}
    (resolved : Config.resolve defs = .ok model) {r : Resource} (hr : r ∈ model.resources)
    {flavor : Flavor} {params : ListParams} {eager columns : List String} {listing : Listing}
    (assembled : Listing.ofParams model r flavor params eager columns = .ok listing)
    (store : Store) :
    ∃ (rows : List Row) (shown : List Json),
      rows.Perm ((store.rows r.name).filter (store.isListed model r params)) ∧
      rows.mapM (store.project model r listing.query) = .ok shown ∧
      ∀ paging, store.page model listing.query paging =
        .ok (Page.of ((shown.drop paging.offset).take paging.perPage)
          ((store.rows r.name).countP (store.isListed model r params)) paging) := by
  have sound := Config.sound_of_resolve resolved
  have columned := Config.columned_of_resolve resolved hr
  obtain ⟨rows, hperm, hrows⟩ : ∃ rows : List Row,
      rows.Perm ((store.rows r.name).filter (store.isListed model r params)) ∧
        store.matching model r listing.query = .ok rows := by
    -- the clause of the query and the four questions agree on every row
    have hanswers : store.answers model r listing.query = store.isListed model r params :=
      funext (answers_eq_isListed model store r sound hr columned assembled)
    rw [← hanswers]
    exact ⟨_, List.mergeSort_perm _ _, matching_of_resolves model store r listing.query
      (Listing.ofParams_resolves sound hr columned assembled)⟩
  obtain ⟨_, _, _, _, _, _, _, _, _, heager, hlisting⟩ := Listing.ofParams_eq_ok model r assembled
  have hresource : model.requireResource listing.query.resource = .ok r := by
    rw [hlisting]
    exact sound.requireResource_name hr
  have hrelated : ∀ name ∈ listing.query.eager, ∃ found, model.related r name = .ok found := by
    rw [hlisting]
    intro name hname
    obtain ⟨relation, hrelation⟩ := heager name hname
    obtain ⟨target, htarget⟩ := sound.related_of_requireRelation hr hrelation
    exact ⟨_, htarget⟩
  obtain ⟨shown, hshown⟩ : ∃ shown, rows.mapM (store.project model r listing.query) = .ok shown :=
    Outcome.exists_mapM_eq_ok fun row _ => exists_project_eq_ok model store r _ row hrelated
  refine ⟨rows, shown, hperm, hshown, fun paging => ?_⟩
  rw [page_eq_ok model store r listing.query hresource hrows hshown paging, hperm.length_eq,
    List.countP_eq_length_filter]

/-- Of three posts that the search finds, one is in the trash and one has no comment. -/
theorem page_of_listing_journal :
    let params : ListParams := {
      search := some "lean"
      filters := { items := [.condition ⟨[⟨"comments", true, true⟩], ⟨"body", false, true⟩⟩
        (.scalar (.str "spam"))] }
      counts := [⟨"comments", .atLeast, 1, true⟩] }
    let store : Store := ⟨[
      ("posts", [
        [("id", .int 1), ("title", .str "Lean")],
        [("id", .int 2), ("title", .str "Lean"), ("deleted_at", .str "now")],
        [("id", .int 3), ("title", .str "lean again")]]),
      ("comments", [
        [("id", .int 1), ("post_id", .int 1), ("body", .str "yes")],
        [("id", .int 2), ("post_id", .int 2), ("body", .str "yes")]])]⟩
    ∃ listing, Listing.ofParams Config.journal (Config.resolveResource Config.postsDef) .api params
        ["comments"] ["title"] = .ok listing ∧
      ∃ page, store.page Config.journal listing.query listing.paging = .ok page ∧
        page.total = 1 := by
  intro params store
  have assembled : Listing.ofParams Config.journal (Config.resolveResource Config.postsDef) .api
      params ["comments"] ["title"] = .ok _ := rfl
  obtain ⟨_, _, _, _, hpage⟩ :=
    page_of_listing Config.resolve_journal List.mem_cons_self assembled store
  exact ⟨_, assembled, _, hpage _, rfl⟩

end Records.Store
