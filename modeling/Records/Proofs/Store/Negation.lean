import Records.Proofs.Filter.Path
import Records.Proofs.Store.Exclusion

/-!
# A relation filter and its negation

The mark `not:` before a key is read off its first segment alone, so before a key of several
segments it negates the first relation of its path (`FilterPath.parse_negated`).  Such a path
compiles to one test on related rows, and the clause inside the test is the same with and without
the mark: the mark negates the test as a whole, whatever the rest of the path asks of the related
rows (`Filtering.compile_negated`).  So the two filters split the rows of a listing between them
(`negation_splits_listing`).
-/

set_option autoImplicit false

namespace Records

/-! ## Keys -/

/-- Reading on after a mark `not:` sets it, and changes nothing else. -/
theorem Segment.ofChars_negated (negated disjoin : Bool) (text : List Char) :
    ofChars true disjoin text = { ofChars negated disjoin text with negated := true } := by
  fun_induction ofChars negated disjoin text with
  | case1 negated disjoin rest ih => rw [ofChars, ih]
  | case2 negated disjoin rest ih => rw [ofChars, ih]
  | case3 negated disjoin name hor hnot => rw [ofChars] <;> assumption

namespace FilterPath

/-- A mark `not:` before a key with a dot negates the first relation of its path. -/
theorem parse_negated {key : String} {first rest : List Char}
    (dotted : Text.cutFirst '.' key.toList = some (first, rest)) {path : FilterPath}
    (h : parse key = .ok path) :
    ∃ segment others, path.relations = segment :: others ∧
      segment = Segment.parse (String.ofList first) ∧
      parse ("not:" ++ key) = .ok ⟨{ segment with negated := true } :: others, path.column⟩ := by
  obtain ⟨hkey, hfirst⟩ := Text.eq_append_of_cutFirst dotted
  have hmarked : ("not:" ++ key).toList = ('n' :: 'o' :: 't' :: ':' :: first) ++ '.' :: rest := by
    rw [String.toList_append, hkey]
    rfl
  have hundotted : '.' ∉ 'n' :: 'o' :: 't' :: ':' :: first := by simpa using hfirst
  have hsegment : Segment.ofChars false false ('n' :: 'o' :: 't' :: ':' :: first) =
      { Segment.ofChars false false first with negated := true } := by
    rw [Segment.ofChars, Segment.ofChars_negated false]
  obtain ⟨relations, column⟩ := path
  -- only the first segment of the key is read differently
  obtain ⟨hparts, hnamed, hshort⟩ := parse_eq_ok_iff.mp h
  rw [hkey, List.splitOn_append_cons_self_of_not_mem hfirst, List.map_cons] at hparts
  cases relations with
  | nil =>
    have hrest := (List.cons.inj hparts).2
    exact absurd (List.map_eq_nil_iff.mp hrest) (List.splitOn_ne_nil _ _)
  | cons segment others =>
    obtain ⟨hread, hothers⟩ := List.cons.inj hparts
    refine ⟨segment, others, rfl, by rw [Segment.parse, String.toList_ofList, hread], ?_⟩
    refine parse_eq_ok_iff.mpr ⟨?_, ?_, hshort⟩
    · rw [hmarked, List.splitOn_append_cons_self_of_not_mem hundotted, List.map_cons, hsegment,
        hread, hothers]
      rfl
    · obtain ⟨hname, hnames⟩ := List.forall_mem_cons.mp hnamed
      exact List.forall_mem_cons.mpr ⟨hname, hnames⟩

end FilterPath

/-! ## Parameters -/

/-- What an operand is read as does not depend on the key that it belongs to. -/
theorem Operand.parse_of_parse {name : String} {json : Json} {operand : Operand}
    (h : parse name json = .ok operand) (other : String) : parse other json = .ok operand := by
  cases json with
  | obj fields =>
    rw [parse] at h ⊢
    split at h
    · rename_i hbounds
      obtain ⟨lower, hlower, h⟩ := Outcome.bind_eq_ok.mp h
      obtain ⟨upper, hupper, h⟩ := Outcome.bind_eq_ok.mp h
      rw [if_pos hbounds, Outcome.bind_of_ok (dayBound_of_dayBound hlower other),
        Outcome.bind_of_ok (dayBound_of_dayBound hupper other)]
      exact h
    · cases h
  | arr values =>
    rw [parse] at h ⊢
    split at h
    · cases h
    · rename_i hscalars
      rw [if_neg hscalars]
      exact h
  | _ => exact h

/-- A filter of one key with a dot is read as one condition. -/
theorem Filters.parse_of_dotted {key : String} {first rest : List Char}
    (dotted : Text.cutFirst '.' key.toList = some (first, rest)) (value : Json) :
    Filters.parse (.obj [(key, value)]) =
      (FilterItem.parseCondition (key, value)).map fun item => { items := [item] } := by
  have hname : ∀ name, Text.cutFirst '.' name.toList = none → key ≠ name := by
    rintro name hname rfl
    rw [hname] at dotted
    cases dotted
  have htrashed : asksTrashed [(key, value)] = false := by
    simp [asksTrashed, Fields.get?, hname "status" rfl]
  have hmembers : FilterItem.members? (key, value) = none := by
    rw [FilterItem.members?.eq_def]
    split
    · rw [if_neg fun h => hname "or" rfl h.1]
    · rfl
  rw [parse_singleton (hname "from" rfl) (hname "to" rfl) htrashed, FilterItem.parse, hmembers]

/-- A filter of a path of relations that is read is read with the first of them negated when the
mark `not:` is put before its key. -/
theorem Filters.parse_negated {key : String} {first rest : List Char}
    (dotted : Text.cutFirst '.' key.toList = some (first, rest)) {value : Json} {filters : Filters}
    (h : Filters.parse (.obj [(key, value)]) = .ok filters) :
    ∃ segment others column operand, segment = Segment.parse (String.ofList first) ∧
      filters = { items := [.condition ⟨segment :: others, column⟩ operand] } ∧
      Filters.parse (.obj [("not:" ++ key, value)]) = .ok { items :=
        [.condition ⟨{ segment with negated := true } :: others, column⟩ operand] } := by
  rw [parse_of_dotted dotted, Outcome.map_eq_ok] at h
  obtain ⟨item, hitem, rfl⟩ := h
  obtain ⟨⟨relations, column⟩, hpath, hitem⟩ := Outcome.bind_eq_ok.mp hitem
  obtain ⟨operand, hoperand, hitem⟩ := Outcome.bind_eq_ok.mp hitem
  cases hitem
  obtain ⟨segment, others, rfl, hsegment, hnegated⟩ := FilterPath.parse_negated dotted hpath
  refine ⟨segment, others, column, operand, hsegment, rfl, ?_⟩
  have hmarked : Text.cutFirst '.' ("not:" ++ key).toList =
      some ('n' :: 'o' :: 't' :: ':' :: first, rest) := by
    rw [String.toList_append]
    show Text.cutFirst '.' ('n' :: 'o' :: 't' :: ':' :: key.toList) = _
    simp [Text.cutFirst, dotted]
  rw [parse_of_dotted hmarked, FilterItem.parseCondition, Outcome.bind_of_ok hnegated,
    Outcome.bind_of_ok (Operand.parse_of_parse hoperand _)]
  rfl

/-- Filters are the last of the parameters that are read. -/
theorem ListParams.parse_cons_filters {others : Fields}
    (h : Fields.get? others "filters" = none) {json : Json} {params : ListParams} :
    ListParams.parse (.obj (("filters", json) :: others)) = .ok params ↔
      ∃ given, ListParams.parse (.obj others) = .ok given ∧ ∃ filters,
        Filters.parse json = .ok filters ∧ { given with filters := filters } = params := by
  have hsort : parseSort (("filters", json) :: others) = parseSort others := by
    simp [parseSort, Fields.get?_cons]
  have hnone : Filters.parse ((Fields.get? others "filters").getD .null) = .ok {} := by
    rw [h]
    rfl
  have hparse : ListParams.parse (.obj (("filters", json) :: others)) =
      ListParams.parse (.obj others) >>= fun given =>
        (Filters.parse json).map fun filters => { given with filters := filters } := by
    rw [parse, parse, hsort, hnone]
    simp only [Fields.get?_cons, bind_assoc]
    rfl
  simp only [hparse, Outcome.bind_eq_ok, Outcome.map_eq_ok]

/-- What is not among the parameters is not asked for. -/
theorem ListParams.eq_of_parse {others : Fields}
    (h : ∀ name ∈ ["filters", "search", "counts"], Fields.get? others name = none)
    {params : ListParams} (hparse : ListParams.parse (.obj others) = .ok params) :
    params.filters = {} ∧ params.search = none ∧ params.counts = [] := by
  rw [parse, h "filters" (by simp), h "search" (by simp), h "counts" (by simp)] at hparse
  obtain ⟨search, hsearch, hparse⟩ := Outcome.bind_eq_ok.mp hparse
  obtain ⟨counts, hcounts, hparse⟩ := Outcome.bind_eq_ok.mp hparse
  obtain ⟨_, _, hparse⟩ := Outcome.bind_eq_ok.mp hparse
  obtain ⟨_, _, hparse⟩ := Outcome.bind_eq_ok.mp hparse
  obtain ⟨_, _, hparse⟩ := Outcome.bind_eq_ok.mp hparse
  obtain ⟨_, _, hparse⟩ := Outcome.bind_eq_ok.mp hparse
  obtain ⟨filters, hfilters, hparse⟩ := Outcome.bind_eq_ok.mp hparse
  cases hparse
  cases hsearch
  cases hcounts
  cases hfilters
  exact ⟨rfl, rfl, rfl⟩

/-! ## Listings -/

section

variable {model : Model} {r : Resource}

/-- A path of relations compiles with its first relation negated when it does without, to a clause
that holds of the other rows. -/
theorem Filtering.compile_negated {segment column : Segment} {others : List Segment}
    {operand : Operand} (unmarked : segment.negated = false) {clause : Clause} {trashed : Trashed}
    (h : compile model r { items := [.condition ⟨segment :: others, column⟩ operand] } =
      .ok (clause, trashed)) :
    trashed = .without ∧ ∃ negation, compile model r
        { items := [.condition ⟨{ segment with negated := true } :: others, column⟩ operand] } =
          .ok (negation, .without) ∧
      ∀ (store : Store) (row : Row), Clause.value (store.holds model r row) negation =
        !Clause.value (store.holds model r row) clause := by
  rw [compile_single] at h
  obtain ⟨entries, hentries, h⟩ := Outcome.map_eq_ok.mp h
  obtain ⟨⟨relation, target⟩, hrelated, hentries⟩ := Outcome.bind_eq_ok.mp hentries
  obtain ⟨inner, hinner, hentries⟩ := Outcome.bind_eq_ok.mp hentries
  cases hentries
  cases h
  refine ⟨rfl, [(joinerOf segment .and, .related segment.name true inner)], ?_, ?_⟩
  · rw [compile_single, pathClause, Outcome.bind_of_ok hrelated]
    show ((pathClause model target column operand .and others >>= _).map _) = _
    rw [Outcome.bind_of_ok hinner]
    rfl
  · -- the clause inside is the same, and what it holds of does not depend on the test around it
    intro store row
    have hresolves : Clause.Resolves model target inner :=
      (pathClause_wellFormed (Nat.le_refl _) hinner).resolves
    have hvalue : ∀ joiner negated, Clause.value (store.holds model r row)
        [(joiner, .related segment.name negated inner)] =
          store.holds model r row (.related segment.name negated inner) := by
      intro joiner negated
      simp [Clause.value, Clause.runs, joinedRuns, splitLeadingRun]
    rw [hvalue, hvalue, unmarked, Store.holds_related model store r row hrelated hresolves,
      Store.holds_related model store r row hrelated hresolves, Bool.bne_true, Bool.bne_false]

/-- Listings that differ in their filters alone, and search and count nothing, have one query but
for its clause. -/
theorem Listing.exists_query_of_ofParams {flavor : Flavor} {params : ListParams}
    {eager columns : List String} {listing : Listing} (hsearch : params.search = none)
    (hcounts : params.counts = [])
    (h : ofParams model r flavor params eager columns = .ok listing) :
    ∃ query : Query, query.trashed = .without ∧
      ∀ filters clause, Filtering.compile model r filters = .ok (clause, .without) →
        ofParams model r flavor { params with filters := filters } eager columns =
          .ok ⟨{ query with clause := Clause.addGroup [] .and clause },
            ⟨params.pageNumber, params.pageSize flavor⟩⟩ := by
  obtain ⟨start, hstart, h⟩ := Outcome.bind_eq_ok.mp h
  obtain ⟨_, _, h⟩ := Outcome.bind_eq_ok.mp h
  obtain ⟨_, _, h⟩ := Outcome.bind_eq_ok.mp h
  obtain ⟨order, horder, _⟩ := Outcome.bind_eq_ok.mp h
  obtain ⟨rfl, _, _⟩ := base_eq_ok r hstart
  refine ⟨{ resource := r.name, columns := columns, eager := eager, order := order }, rfl, ?_⟩
  intro filters clause hcompile
  have hfilters : filterClause model r filters = .ok (clause, .without) := by
    rw [filterClause_eq_compile, hcompile]
  rw [ofParams, Outcome.bind_of_ok hstart]
  simp only [hsearch, hcounts]
  show (filterClause model r filters >>= _) = _
  rw [Outcome.bind_of_ok hfilters]
  show (orderOf r params.sort >>= _) = _
  rw [Outcome.bind_of_ok horder]
  rfl

end

/-- A query of one group sees the live rows that the clause of the group holds of. -/
theorem Store.matching_of_group {model : Model} {store : Store} {r : Resource} {query : Query}
    (htrashed : query.trashed = .without) {clause : Clause}
    (hresolves : Clause.Resolves model r clause) :
    ∃ rows : List Row, store.matching model r { query with
        clause := Clause.addGroup [] .and clause } = .ok rows ∧
      rows.Perm ((store.rows r.name).filter fun row =>
        Row.isLive r row && Clause.value (store.holds model r row) clause) := by
  have hgroup : Clause.Resolves model r (Clause.addGroup [] .and clause) :=
    (Clause.resolves_addGroup model r [] clause .and).mpr ⟨trivial, hresolves⟩
  refine ⟨_, Store.matching_of_resolves model store r _ hgroup, ?_⟩
  refine (List.mergeSort_perm _ _).trans (List.Perm.of_eq (List.filter_congr fun row _ => ?_))
  rw [answers, value_addGroup model store r row [] clause (List.forall_mem_nil _) hresolves]
  simp [htrashed, isVisible, Clause.value]

namespace Service

/-- One page of the rows that an object of parameters asks for. -/
def listFor (service : Service) (store : Store) (json : Json) (eager columns : List String) :
    Except Fault (Page Json) := do
  service.list store (← ListParams.parse json) eager columns

/-- All the rows that an object of parameters asks for, from which the pages are cut. -/
def rowsFor (service : Service) (store : Store) (json : Json) (eager columns : List String) :
    Except Fault (List Row) := do
  let params ← ListParams.parse json
  let listing ←
    Listing.ofParams service.model service.resource service.flavor params eager columns
  store.matching service.model service.resource listing.query

variable {model : Model} {r : Resource} {flavor : Flavor} {store : Store} {json : Json}
  {eager columns : List String}

/-- The page of a listing is cut from its rows as they are shown, and counts them all. -/
theorem listFor_of_rowsFor (hr : model.requireResource r.name = .ok r)
    (heager : ∀ name ∈ eager, ∃ found, model.related r name = .ok found) {rows : List Row}
    (h : rowsFor ⟨model, r, flavor⟩ store json eager columns = .ok rows) :
    ∃ query shown paging, rows.mapM (store.project model r query) = .ok shown ∧
      listFor ⟨model, r, flavor⟩ store json eager columns =
        .ok (Page.of ((shown.drop paging.offset).take paging.perPage) rows.length paging) := by
  obtain ⟨params, hparams, h⟩ := Outcome.bind_eq_ok.mp h
  obtain ⟨listing, hlisting, hrows⟩ := Outcome.bind_eq_ok.mp h
  obtain ⟨hresource, hshows, _⟩ := Listing.query_of_ofParams model r hlisting
  obtain ⟨shown, hshown⟩ := Outcome.exists_mapM_eq_ok fun row (_ : row ∈ rows) =>
    Store.exists_project_eq_ok model store r listing.query row (hshows ▸ heager)
  refine ⟨listing.query, shown, listing.paging, hshown, ?_⟩
  rw [listFor, Outcome.bind_of_ok hparams, list, Outcome.bind_of_ok hlisting]
  exact Store.page_eq_ok model store r listing.query (hresource ▸ hr) hrows hshown listing.paging

variable (store) in
/-- Listings that differ in their filters alone, and search and count nothing, are accepted
together, and see the live rows that the clauses of their filters hold of. -/
theorem exists_rowsFor {params : ListParams} (hsearch : params.search = none)
    (hcounts : params.counts = []) {listing : Listing}
    (hlisting : Listing.ofParams model r flavor params eager columns = .ok listing)
    {filters : Filters} {clause : Clause}
    (hjson : ListParams.parse json = .ok { params with filters := filters })
    (hcompile : Filtering.compile model r filters = .ok (clause, .without)) :
    ∃ rows : List Row, rowsFor ⟨model, r, flavor⟩ store json eager columns = .ok rows ∧
      rows.Perm ((store.rows r.name).filter fun row =>
        Row.isLive r row && Clause.value (store.holds model r row) clause) := by
  obtain ⟨query, htrashed, hqueries⟩ := Listing.exists_query_of_ofParams hsearch hcounts hlisting
  obtain ⟨rows, hrows, hperm⟩ :=
    Store.matching_of_group htrashed (Filtering.compile_resolves hcompile)
  refine ⟨rows, ?_, hperm⟩
  rw [rowsFor, Outcome.bind_of_ok hjson, Outcome.bind_of_ok (hqueries filters clause hcompile)]
  exact hrows

end Service

/-- Rows that pass a test and rows that do not are all the rows, each in one of the two parts. -/
theorem split_of_perm {α : Type} {among passes : α → Bool} {rows passed excluded all : List α}
    (hpassed : passed.Perm (rows.filter fun row => among row && passes row))
    (hexcluded : excluded.Perm (rows.filter fun row => among row && !passes row))
    (hall : all.Perm (rows.filter among)) :
    (passed ++ excluded).Perm all ∧ passed.Disjoint excluded := by
  constructor
  · have hsplit : ((rows.filter among).filter passes ++
        (rows.filter among).filter fun row => !passes row).Perm (rows.filter among) :=
      List.filter_append_perm _ _
    rw [List.filter_filter, List.filter_filter] at hsplit
    simp only [Bool.and_comm (passes _), Bool.and_comm (!passes _)] at hsplit
    exact ((hpassed.append hexcluded).trans hsplit).trans hall.symm
  · intro row hmem hother
    have hpasses := (List.mem_filter.mp (hpassed.mem_iff.mp hmem)).2
    have hfails := (List.mem_filter.mp (hexcluded.mem_iff.mp hother)).2
    simp_all

/-- A filter on a path of relations and the same filter with the mark `not:` before its key split a
listing: whenever the first is answered the second is, every row of the listing without a filter is
in exactly one of the two, and no other row is in either. -/
theorem negation_splits_listing {model : Model} {r : Resource}
    (hr : model.requireResource r.name = .ok r) {flavor : Flavor} {store : Store} {others : Fields}
    (unasked : ∀ name ∈ ["filters", "search", "counts"], Fields.get? others name = none)
    {eager columns : List String}
    (heager : ∀ name ∈ eager, ∃ found, model.related r name = .ok found) {key : String}
    {first rest : List Char} (dotted : Text.cutFirst '.' key.toList = some (first, rest))
    (unmarked : (Segment.parse (String.ofList first)).negated = false) {value : Json}
    {page : Page Json}
    (listed : Service.listFor ⟨model, r, flavor⟩ store
      (.obj (("filters", .obj [(key, value)]) :: others)) eager columns = .ok page) :
    let rowsFor := fun fields => Service.rowsFor ⟨model, r, flavor⟩ store (.obj fields) eager columns
    let listFor := fun fields => Service.listFor ⟨model, r, flavor⟩ store (.obj fields) eager columns
    ∃ passed excluded all negated whole,
      rowsFor (("filters", .obj [(key, value)]) :: others) = .ok passed ∧
      rowsFor (("filters", .obj [("not:" ++ key, value)]) :: others) = .ok excluded ∧
      rowsFor others = .ok all ∧
      (passed ++ excluded).Perm all ∧ passed.Disjoint excluded ∧
      listFor (("filters", .obj [("not:" ++ key, value)]) :: others) = .ok negated ∧
      listFor others = .ok whole ∧ page.total + negated.total = whole.total := by
  intro rowsFor listFor
  obtain ⟨params, hparams, hlist⟩ := Outcome.bind_eq_ok.mp listed
  obtain ⟨listing, hlisting, _⟩ := Outcome.bind_eq_ok.mp hlist
  obtain ⟨given, hgiven, filters, hfilters, rfl⟩ :=
    (ListParams.parse_cons_filters (unasked "filters" (by simp))).mp hparams
  obtain ⟨hnone, hsearch, hcounts⟩ := ListParams.eq_of_parse unasked hgiven
  obtain ⟨segment, path, column, operand, rfl, rfl, hnegated⟩ :=
    Filters.parse_negated dotted hfilters
  obtain ⟨_, _, _, _, _, hcompile, _⟩ := Listing.ofParams_eq_ok model r hlisting
  obtain ⟨rfl, negation, hnegation, hvalue⟩ := Filtering.compile_negated unmarked hcompile
  have hmarked := (ListParams.parse_cons_filters (unasked "filters" (by simp))).mpr
    ⟨given, hgiven, _, hnegated, rfl⟩
  have hbare : ListParams.parse (.obj others) = .ok { given with filters := {} } := by
    rw [hgiven, ← hnone]
  -- the rows of the three listings
  obtain ⟨passed, hpassed, hpassedRows⟩ := Service.exists_rowsFor store (by exact hsearch)
    (by exact hcounts) hlisting hparams hcompile
  obtain ⟨excluded, hexcluded, hexcludedRows⟩ := Service.exists_rowsFor store (by exact hsearch)
    (by exact hcounts) hlisting hmarked hnegation
  obtain ⟨all, hall, hallRows⟩ := Service.exists_rowsFor store (by exact hsearch)
    (by exact hcounts) hlisting hbare rfl
  have hlive : all.Perm ((store.rows r.name).filter (Row.isLive r)) := by
    simpa [Clause.value] using hallRows
  simp only [hvalue] at hexcludedRows
  obtain ⟨hperm, hdisjoint⟩ := split_of_perm hpassedRows hexcludedRows hlive
  -- their pages count them
  obtain ⟨_, _, _, _, hpage⟩ := Service.listFor_of_rowsFor hr heager hpassed
  obtain ⟨_, _, _, _, hnegatedPage⟩ := Service.listFor_of_rowsFor hr heager hexcluded
  obtain ⟨_, _, _, _, hwhole⟩ := Service.listFor_of_rowsFor hr heager hall
  obtain rfl := Except.ok.inj (hpage.symm.trans listed)
  refine ⟨passed, excluded, all, _, _, hpassed, hexcluded, hall, hperm, hdisjoint, hnegatedPage,
    hwhole, ?_⟩
  rw [Page.of, Page.of, Page.of, ← hperm.length_eq, List.length_append]

/-- Posts with a comment on a post whose title is known to be another, and all others. -/
theorem negation_splits_listing_journal :
    let posts := Config.resolveResource Config.postsDef
    let store : Store := ⟨[
      ("posts", [
        [("id", .int 1), ("title", .str "Lean")],
        [("id", .int 2), ("title", .null)],
        [("id", .int 3), ("title", .str "other")],
        [("id", .int 4), ("title", .str "other"), ("deleted_at", .str "now")]]),
      ("comments", [
        [("id", .int 1), ("post_id", .int 1), ("body", .str "first")],
        [("id", .int 2), ("post_id", .int 3), ("body", .str "second")]])]⟩
    let others : Fields := [("sort", .str "id"), ("per_page", .int 2)]
    let listFor := fun fields : Fields =>
      Service.listFor ⟨Config.journal, posts, .api⟩ store (.obj fields) ["comments"] ["id"]
    let filtered := fun key : String =>
      ("filters", Json.obj [(key, .arr [.null, .str "Lean"])]) :: others
    Config.journal.requireResource posts.name = .ok posts ∧
      (∀ name ∈ ["filters", "search", "counts"], Fields.get? others name = none) ∧
      Text.cutFirst '.' "or:comments.post.not:title".toList =
        some ("or:comments".toList, "post.not:title".toList) ∧
      (Segment.parse (String.ofList "or:comments".toList)).negated = false ∧
      ∃ page negated whole, listFor (filtered "or:comments.post.not:title") = .ok page ∧
        listFor (filtered ("not:" ++ "or:comments.post.not:title")) = .ok negated ∧
        listFor others = .ok whole ∧ page.total = 1 ∧ negated.total = 2 ∧ whole.total = 3 := by
  intro posts store others listFor filtered
  have hr : Config.journal.requireResource posts.name = .ok posts := rfl
  have heager : ∀ name ∈ ["comments"], ∃ found, Config.journal.related posts name = .ok found := by
    intro name hname
    rw [List.mem_singleton.mp hname]
    exact ⟨_, rfl⟩
  have unasked : ∀ name ∈ ["filters", "search", "counts"], Fields.get? others name = none := by
    decide
  have dotted : Text.cutFirst '.' "or:comments.post.not:title".toList =
      some ("or:comments".toList, "post.not:title".toList) := rfl
  -- the first listing is answered
  let params : ListParams := {
    perPage := some 2
    sort := some ⟨"id", .descending⟩
    filters := { items := [.condition ⟨[⟨"comments", false, true⟩, ⟨"post", false, false⟩],
      ⟨"title", true, false⟩⟩ (.list [.null, .str "Lean"])] } }
  have hparams : ListParams.parse (.obj (filtered "or:comments.post.not:title")) =
      .ok { params with filters := params.filters } := rfl
  have hlisting : Listing.ofParams Config.journal posts .api params ["comments"] ["id"] =
      .ok _ := rfl
  obtain ⟨passed, hpassed, hpassedRows⟩ :=
    Service.exists_rowsFor store rfl rfl hlisting hparams rfl
  obtain ⟨_, _, _, _, hlisted⟩ := Service.listFor_of_rowsFor hr heager hpassed
  obtain ⟨_, _, _, negated, whole, _, _, _, _, _, hnegated, hwhole, htotal⟩ :=
    negation_splits_listing hr unasked heager dotted rfl hlisted
  -- one row passes and three are live, so by the sum of the totals two are left for the negation
  have hone : passed.length = 1 := hpassedRows.length_eq.trans (by decide +kernel)
  have hbare : ListParams.parse (.obj others) = .ok { params with filters := {} } := rfl
  obtain ⟨all, hall, hallRows⟩ := Service.exists_rowsFor store rfl rfl hlisting hbare rfl
  obtain ⟨_, _, _, _, hcounted⟩ := Service.listFor_of_rowsFor hr heager hall
  have hthree : whole.total = 3 := by
    rw [Except.ok.inj (hwhole.symm.trans hcounted)]
    exact hallRows.length_eq.trans (by decide +kernel)
  have htwo : negated.total = 2 := by
    have hsum : passed.length + negated.total = whole.total := htotal
    omega
  exact ⟨hr, unasked, dotted, rfl, _, negated, whole, hlisted, hnegated, hwhole, hone, htwo, hthree⟩

end Records
