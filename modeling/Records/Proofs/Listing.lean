import Records.Proofs.Query.Assembly
import Records.Proofs.Sql.Building
import Records.Proofs.Store.Partition

/-!
# Accepted listings

The query of a listing whose parameters are read and assembled over a resolved model is well formed,
and nothing that is done with it later can fail, but for the numbers of a page that are too great
for a statement (`accepted_listing`).
-/

set_option autoImplicit false

namespace Records

/-- A listing of a resource that names nothing that does not exist, asks for a page that can be
there, and ends its order with the key. -/
structure Listing.WellFormed (model : Model) (r : Resource) (listing : Listing) : Prop where
  resource : model.requireResource listing.query.resource = .ok r
  page : 1 ≤ listing.paging.page
  perPage : 1 ≤ listing.paging.perPage
  columns : ∀ name ∈ listing.query.columns, r.hasColumn name = true
  eager : ∀ name ∈ listing.query.eager, ∃ found, model.related r name = .ok found
  order : ∀ key ∈ listing.query.order, r.hasColumn key.1 = true
  key : ∃ direction, listing.query.order.getLast? = some (r.primaryKey, direction)
  clause : Clause.WellFormed model r FilterPath.maxRelations listing.query.clause
  trashed : listing.query.trashed = .only →
    ∃ mark, r.softDeleteColumn = some mark ∧ r.hasColumn mark = true

namespace Listing

variable {model : Model} {r : Resource}

/-- An order that is accepted is by columns of the resource. -/
theorem hasColumn_of_orderOf (columned : r.Columned model) {sort : Option SortKey}
    {order : List (String × SortDirection)} (h : orderOf r sort = .ok order) :
    ∀ key ∈ order, r.hasColumn key.1 = true := by
  have hwith : ∀ column direction, r.hasColumn column = true →
      ∀ key ∈ orderOf.withKey r column direction, r.hasColumn key.1 = true := by
    intro column direction hcolumn
    rw [orderOf.withKey]
    by_cases hkey : column = r.primaryKey
    · rw [if_pos hkey]
      simp [hkey, columned.key]
    · rw [if_neg hkey]
      simp [hcolumn, columned.key]
  cases sort with
  | none =>
    cases h
    exact hwith _ _ columned.timestamp
  | some sort =>
    obtain ⟨column, hfound, rfl⟩ := Outcome.map_eq_ok.mp h
    apply hwith
    rw [Resource.name_of_requireColumn hfound]
    exact Resource.hasColumn_of_requireColumn ⟨column, hfound⟩

/-- A listing of parameters that were read is well formed. -/
theorem wellFormed_of_ofParams (sound : model.Sound) (hr : r ∈ model.resources)
    (columned : r.Columned model) {flavor : Flavor} {params : ListParams}
    (bounds : params.InBounds) {eager columns : List String} {listing : Listing}
    (h : ofParams model r flavor params eager columns = .ok listing) :
    listing.WellFormed model r := by
  have hclause := ofParams_wellFormed sound hr columned h (by decide) bounds.reach
  obtain ⟨search, filters, trashed, order, _, hfilters, horder, _, hcolumns, heager, rfl⟩ :=
    ofParams_eq_ok model r h
  obtain ⟨htrashed, hmark⟩ := Filtering.trashed_of_compile model hfilters
  refine ⟨sound.requireResource_name hr, bounds.page, bounds.size flavor, ?_, ?_,
    hasColumn_of_orderOf columned horder, getLast?_of_orderOf horder, hclause, ?_⟩
  · exact fun name hname => Resource.hasColumn_of_requireColumn (hcolumns name hname)
  · exact fun name hname => sound.exists_related hr (heager name hname)
  · -- only the switch of the filters asks for the trash, and they compile only where there is one
    intro honly
    have hswitch : params.filters.trashed = true := by
      by_contra hoff
      rw [Bool.not_eq_true] at hoff
      rw [hoff] at htrashed
      cases htrashed
      cases honly
    obtain ⟨mark, hmark⟩ := Option.ne_none_iff_exists'.mp (hmark hswitch)
    exact ⟨mark, hmark, columned.mark mark hmark⟩

/-- Whatever parameters are read and assembled over a resolved model, the listing is well formed:
its first statement is built, its page statements fail only at numbers that a signed 64-bit integer
cannot hold, and over any stored rows its pages and its first row are found. -/
theorem accepted_listing {defs : Definitions} (resolved : Config.resolve defs = .ok model)
    (hr : r ∈ model.resources) {value : Json} {params : ListParams}
    (read : ListParams.parse value = .ok params) {flavor : Flavor} {eager columns : List String}
    {listing : Listing}
    (assembled : ofParams model r flavor params eager columns = .ok listing) :
    listing.WellFormed model r ∧
      (∃ first, Sql.firstOf model listing.query = .ok first) ∧
      (∀ paging, (Sql.pageOf model listing.query paging).map (fun _ => ()) =
        if 2 ^ 63 ≤ paging.perPage then .error (.invalid .perPageTooLarge)
        else if 2 ^ 63 ≤ paging.offset then .error (.invalid .pageTooLarge)
        else .ok ()) ∧
      ∀ store : Store,
        (∀ paging, ∃ page, store.page model listing.query paging = .ok page) ∧
          ∃ found, store.first? model listing.query = .ok found := by
  have sound := Config.sound_of_resolve resolved
  have columned := Config.columned_of_resolve resolved hr
  have wellFormed := wellFormed_of_ofParams sound hr columned (ListParams.inBounds_of_parse read)
    assembled
  have hresolves := wellFormed.clause.resolves
  have hresource := wellFormed.resource
  refine ⟨wellFormed, Sql.exists_firstOf_eq_ok hresource hresolves wellFormed.eager, ?_, ?_⟩
  · intro paging
    rw [Sql.pageOf_outcome hresource hresolves wellFormed.eager, Sql.pagingFault_eq]
  · intro store
    have hrows := Store.matching_of_resolves model store r listing.query hresolves
    obtain ⟨shown, hshown⟩ := Outcome.exists_mapM_eq_ok fun row _ =>
      Store.exists_project_eq_ok model store r listing.query row wellFormed.eager
    constructor
    · exact fun paging =>
        ⟨_, Store.page_eq_ok model store r listing.query hresource hrows hshown paging⟩
    · exact ⟨_, Store.first?_of_mapM_eq_ok hresource hrows hshown⟩

/-- A listing that uses every parameter, and a page that no statement can ask for. -/
theorem accepted_listing_journal :
    let value : Json := .obj [
      ("search", .str "lean"),
      ("page", .str "2"),
      ("per_page", .int 5),
      ("sort", .str "title"),
      ("counts", .obj [("comments", .int 1)]),
      ("filters", .obj [
        ("status", .str "trashed"),
        ("from", .str "2024-01-01"),
        ("or", .obj [("slug", .null), ("comments.not:post.title", .str "Lean")])])]
    let params : ListParams := {
      search := some "lean"
      page := some 2
      perPage := some 5
      sort := some ⟨"title", .descending⟩
      filters := {
        lower := some "2024-01-01"
        trashed := true
        items := [.anyOf [
          .condition ⟨[], ⟨"slug", false, false⟩⟩ (.scalar .null),
          .condition ⟨[⟨"comments", false, false⟩, ⟨"post", true, false⟩], ⟨"title", false, false⟩⟩
            (.scalar (.str "Lean"))]] }
      counts := [⟨"comments", .atLeast, 1, false⟩] }
    let posts := Config.resolveResource Config.postsDef
    ListParams.parse value = .ok params ∧
      ∃ listing, ofParams Config.journal posts .api params ["comments"] ["title"] = .ok listing ∧
      listing.WellFormed Config.journal posts ∧
      (∃ first, Sql.firstOf Config.journal listing.query = .ok first) ∧
      (Sql.pageOf Config.journal listing.query ⟨2, 2 ^ 63⟩).map (fun _ => ()) =
        .error (.invalid .perPageTooLarge) ∧
      ∃ page, (Store.mk []).page Config.journal listing.query ⟨2, 2 ^ 63⟩ = .ok page := by
  intro value params posts
  have read : ListParams.parse value = .ok params := rfl
  have assembled : ofParams Config.journal posts .api params ["comments"] ["title"] = .ok _ := rfl
  obtain ⟨wellFormed, hfirst, hpage, hstore⟩ :=
    accepted_listing Config.resolve_journal List.mem_cons_self read assembled
  exact ⟨read, _, assembled, wellFormed, hfirst, hpage ⟨2, 2 ^ 63⟩,
    (hstore ⟨[]⟩).1 ⟨2, 2 ^ 63⟩⟩

end Listing

end Records
