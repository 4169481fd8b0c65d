import Records.Proofs.Config.Sound
import Records.Proofs.Json.Fields
import Records.Proofs.Store.Pages

/-!
# What is shown of the rows of a page

Which columns and relations a query shows has no part in which rows it serves: rows are tested,
ordered and cut to a page as they are stored, and only then shown (`pages_serve_same_rows`).  A row
is joined as it is stored, so a relation shows the same whether or not its column is shown, and it
stands in the place of a column of its name.
-/

set_option autoImplicit false

namespace Records

/-- What a relation shows of the rows that it joins: a list of all of them, or the first, if any. -/
def Relation.shows (relation : Relation) (joined : List Row) : Json :=
  match relation.kind with
  | .hasMany => .arr (joined.map .obj)
  | .belongsTo | .hasOne => (joined.head?.map .obj).getD .null

/-- What a query for some columns, or for all where it names none, and some relations shows of a row
as it is stored. -/
structure Row.IsShown (model : Model) (store : Store) (r : Resource) (columns eager : List String)
    (row shown : Row) : Prop where
  whole : columns = [] → ∀ name ∉ eager, Fields.get? shown name = Fields.get? row name
  selected : ∀ name ∈ columns, name ∉ eager →
    Fields.get? shown name = some ((Fields.get? row name).getD .null)
  others : columns ≠ [] → ∀ name ∉ columns, name ∉ eager → Fields.get? shown name = none
  related : ∀ name ∈ eager, ∃ relation ∈ r.relations, relation.name = name ∧
    ∃ target ∈ model.resources, target.name = relation.related ∧
      Fields.get? shown name =
        some (relation.shows ((store.rows target.name).filter (Row.isJoined relation target row)))

namespace Store

variable {model : Model} {store : Store} {r : Resource} {query : Query} {rows : List Row}

/-- What is shown of a relation is what it shows of the live rows that it joins. -/
theorem shownRelated_eq_shows (store : Store) (relation : Relation) (target : Resource)
    (row : Row) :
    store.shownRelated relation target row =
      relation.shows ((store.rows target.name).filter (Row.isJoined relation target row)) := by
  rw [shownRelated, relatedRows_eq_filter, Relation.isMany, Relation.shows]
  generalize (store.rows target.name).filter (Row.isJoined relation target row) = joined
  cases relation.kind with
  | hasMany => rfl
  | belongsTo | hasOne => cases joined <;> rfl

/-- What is shown of a row's columns: all of them, or those asked for, with null for what it lacks.
-/
theorem get?_shownColumns (columns : List String) (row : Row) (name : String) :
    Fields.get? (shownColumns columns row) name =
      if columns = [] then Fields.get? row name
      else if name ∈ columns then some ((Fields.get? row name).getD .null) else none := by
  rw [shownColumns]
  cases columns with
  | nil => rfl
  | cons first rest =>
    rw [if_neg (by simp), if_neg (by simp)]
    exact Fields.get?_ofWritten_map (fun n => (Fields.get? row n).getD .null) _ name

/-- The rows that match a query are stored. -/
theorem mem_of_matching (h : store.matching model r query = .ok rows) :
    ∀ row ∈ rows, row ∈ store.rows r.name := by
  obtain ⟨passed, hpassed, rfl⟩ := Outcome.map_eq_ok.mp h
  obtain ⟨_, rfl⟩ := passing_eq_ok.mp hpassed
  intro row hrow
  exact List.mem_of_mem_filter (List.mem_mergeSort.mp hrow)

section

variable (query) {defs : Definitions} (resolved : Config.resolve defs = .ok model)
  (hresource : model.requireResource query.resource = .ok r)
  (heager : ∀ name ∈ query.eager, name ∈ r.relations.map Relation.name)

include resolved hresource heager

/-- A query that names relations of its resource shows every row. -/
theorem exists_project_isShown (store : Store) (row : Row) :
    ∃ shown, store.project model r query row = .ok (.obj shown) ∧
      Row.IsShown model store r query.columns query.eager row shown := by
  have hr := Model.mem_of_requireResource hresource
  have hrelated : ∀ name ∈ query.eager, ∃ found, model.related r name = .ok found :=
    fun name hname => (Config.sound_of_resolve resolved).exists_related hr
      (Resource.exists_requireRelation_iff.mpr (heager name hname))
  refine ⟨_, project_eq_ok model store r query row hrelated, ?_⟩
  -- a name of a relation is written last, over a column of that name
  have hshown := fun name => Fields.get?_foldl_put_map (store.relatedValue model r row) query.eager
    (shownColumns query.columns row) name
  constructor
  · intro hall name hname
    rw [hshown, if_neg hname, get?_shownColumns, if_pos hall]
  · intro name hcolumn hname
    have hsome : query.columns ≠ [] := List.ne_nil_of_mem hcolumn
    rw [hshown, if_neg hname, get?_shownColumns, if_neg hsome, if_pos hcolumn]
  · intro hsome name hcolumn hname
    rw [hshown, if_neg hname, get?_shownColumns, if_neg hsome, if_neg hcolumn]
  · intro name hname
    obtain ⟨⟨relation, target⟩, hfound⟩ := hrelated name hname
    obtain ⟨⟨hrelation, hrname⟩, htarget, hled⟩ :=
      (Config.related_iff_of_resolve resolved hr).mp hfound
    refine ⟨relation, hrelation, hrname, target, htarget, hled, ?_⟩
    rw [hshown, if_pos hname, relatedValue, hfound]
    exact congrArg some (shownRelated_eq_shows store relation target row)

/-- A page shows the rows at its place, each in the place of its own. -/
theorem exists_page_isShown (hrows : store.matching model r query = .ok rows) (paging : Paging) :
    ∃ items, store.page model query paging = .ok (Page.of items rows.length paging) ∧
      List.Forall₂ (fun row item => ∃ shown, item = .obj shown ∧
          Row.IsShown model store r query.columns query.eager row shown)
        ((rows.drop paging.offset).take paging.perPage) items := by
  have hproject := exists_project_isShown query resolved hresource heager store
  obtain ⟨items, hitems⟩ := Outcome.exists_mapM_eq_ok fun row (_ : row ∈ rows) => by
    obtain ⟨shown, hshown, _⟩ := hproject row
    exact ⟨_, hshown⟩
  have hall : List.Forall₂ (fun row item => ∃ shown, item = .obj shown ∧
      Row.IsShown model store r query.columns query.eager row shown) rows items := by
    refine (Outcome.mapM_eq_ok.mp hitems).imp fun row item hitem => ?_
    obtain ⟨shown, hshown, hisShown⟩ := hproject row
    rw [hshown] at hitem
    exact ⟨shown, (Except.ok.inj hitem).symm, hisShown⟩
  exact ⟨_, page_eq_ok model store r query hresource hrows hitems paging,
    List.forall₂_take _ (List.forall₂_drop _ hall)⟩

end

/-- Two choices of what is shown of the rows that answer a query give pages that show the same
stored rows, one after another, with the same numbers. -/
theorem pages_serve_same_rows {defs : Definitions} (resolved : Config.resolve defs = .ok model)
    (hresource : model.requireResource query.resource = .ok r)
    (hrows : store.matching model r query = .ok rows) (paging : Paging)
    (columns₁ columns₂ : List String) {eager₁ eager₂ : List String}
    (heager₁ : ∀ name ∈ eager₁, name ∈ r.relations.map Relation.name)
    (heager₂ : ∀ name ∈ eager₂, name ∈ r.relations.map Relation.name) :
    let served := (rows.drop paging.offset).take paging.perPage
    (∀ row ∈ served, row ∈ store.rows r.name) ∧ ∃ page₁ page₂,
      store.page model { query with columns := columns₁, eager := eager₁ } paging = .ok page₁ ∧
      store.page model { query with columns := columns₂, eager := eager₂ } paging = .ok page₂ ∧
      page₁.total = page₂.total ∧ page₁.lastPage = page₂.lastPage ∧
      page₁.items.length = page₂.items.length ∧
      List.Forall₂ (fun row item => ∃ shown, item = .obj shown ∧
        Row.IsShown model store r columns₁ eager₁ row shown) served page₁.items ∧
      List.Forall₂ (fun row item => ∃ shown, item = .obj shown ∧
        Row.IsShown model store r columns₂ eager₂ row shown) served page₂.items := by
  intro served
  have hstored : ∀ row ∈ served, row ∈ store.rows r.name :=
    fun row hrow => mem_of_matching hrows row (List.mem_of_mem_drop (List.mem_of_mem_take hrow))
  -- the rows that answer a query are found without its columns and relations
  obtain ⟨items₁, hpage₁, hshown₁⟩ := exists_page_isShown
    { query with columns := columns₁, eager := eager₁ } resolved hresource heager₁ hrows paging
  obtain ⟨items₂, hpage₂, hshown₂⟩ := exists_page_isShown
    { query with columns := columns₂, eager := eager₂ } resolved hresource heager₂ hrows paging
  exact ⟨hstored, _, _, hpage₁, hpage₂, rfl, rfl, hshown₁.length_eq.symm.trans hshown₂.length_eq,
    hshown₁, hshown₂⟩

/-- The second of two posts, as it is stored and by its title with its comments. -/
theorem pages_serve_same_rows_journal :
    let posts := Config.resolveResource Config.postsDef
    let post (key : Int) (title : String) : Row := [("id", .int key), ("title", .str title)]
    let comment (key : Int) (body : String) : Row :=
      [("id", .int key), ("post_id", .int 2), ("body", .str body)]
    let store : Store := ⟨[
      ("posts", [post 1 "first", post 2 "second"]),
      ("comments", [comment 1 "early", comment 2 "late"])]⟩
    let query : Query := { resource := "posts", order := [("id", .ascending)] }
    (Config.resolve ⟨[Config.postsDef, Config.commentsDef]⟩ = .ok Config.journal ∧
        Config.journal.requireResource query.resource = .ok posts ∧
        store.matching Config.journal posts query = .ok [post 1 "first", post 2 "second"]) ∧
      ∃ whole cut page₁ page₂,
        store.page Config.journal query ⟨2, 1⟩ = .ok page₁ ∧
        store.page Config.journal { query with columns := ["title"], eager := ["comments"] }
          ⟨2, 1⟩ = .ok page₂ ∧
        page₁.items = [.obj whole] ∧ page₂.items = [.obj cut] ∧
        Row.IsShown Config.journal store posts [] [] (post 2 "second") whole ∧
        Row.IsShown Config.journal store posts ["title"] ["comments"] (post 2 "second") cut := by
  intro posts post comment store query
  have hsorted : ([post 1 "first", post 2 "second"].mergeSort fun a b =>
      (Row.order query.order a b).isLE) = [post 1 "first", post 2 "second"] :=
    List.mergeSort_of_pairwise (by decide +kernel)
  have hrows : store.matching Config.journal posts query = .ok [post 1 "first", post 2 "second"] :=
    congrArg Except.ok hsorted
  have heager : ∀ name ∈ ["comments"], name ∈ posts.relations.map Relation.name := by
    decide +kernel
  obtain ⟨_, page₁, page₂, hpage₁, hpage₂, _, _, _, hshown₁, hshown₂⟩ :=
    pages_serve_same_rows Config.resolve_journal rfl hrows ⟨2, 1⟩ [] ["title"]
      (List.forall_mem_nil _) heager
  obtain ⟨_, rest₁, ⟨whole, rfl, hwhole⟩, hrest₁, hitems₁⟩ := List.forall₂_cons_left_iff.mp hshown₁
  obtain ⟨_, rest₂, ⟨cut, rfl, hcut⟩, hrest₂, hitems₂⟩ := List.forall₂_cons_left_iff.mp hshown₂
  cases hrest₁
  cases hrest₂
  exact ⟨⟨Config.resolve_journal, rfl, hrows⟩, whole, cut, page₁, page₂, hpage₁, hpage₂, hitems₁,
    hitems₂, hwhole, hcut⟩

end Store

end Records
