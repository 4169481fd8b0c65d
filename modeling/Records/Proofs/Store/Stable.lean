import Mathlib.Data.List.Pairwise
import Records.Proofs.Query.Assembly
import Records.Proofs.Store.Sorting

/-!
# Stable pages

The pages of an assembled listing do not depend on the order in which rows are stored, as long as no
two rows of the listed resource tie on the key (`page_of_permuted`).  Evaluation asks of related
rows only whether there is one and how many there are, and the order of a listing ends with the key,
so that it leaves no ties for the order of storage to break.
-/

set_option autoImplicit false

namespace Records

/-! ### The order of rows -/

namespace Row

/-- Rows that differ in a column by which they are ordered do not tie. -/
theorem order_ne_eq {keys : List (String × SortDirection)} {column : String}
    {direction : SortDirection} (h : (column, direction) ∈ keys) {a b : Row}
    (differ : Json.orderOptional (Fields.get? a column) (Fields.get? b column) ≠ .eq) :
    order keys a b ≠ .eq := by
  induction keys with
  | nil => cases h
  | cons key rest ih =>
    rw [order, Ne, Ordering.then_eq_eq, not_and_or]
    rcases List.mem_cons.mp h with rfl | h
    · left
      cases direction with
      | ascending => exact differ
      | descending => simpa [orderBy] using differ
    · exact .inr (ih h)

end Row

section

variable {α : Type} {cmp : α → α → Ordering} {l m : List α}

/-- If a value does not tie with another, that one does not tie with it either. -/
theorem symm_ne_eq [Std.OrientedCmp cmp] : Std.Symm fun a b => cmp a b ≠ .eq where
  symm a b hab hba := by
    have hswap : cmp a b = (cmp b a).swap := Std.OrientedCmp.eq_swap
    rw [hba] at hswap
    exact hab hswap

/-- Sorting forgets the order of members that do not tie. -/
theorem mergeSort_eq_of_perm [Std.TransCmp cmp] (h : l.Perm m)
    (distinct : l.Pairwise fun a b => cmp a b ≠ .eq) :
    (l.mergeSort fun a b => (cmp a b).isLE) = m.mergeSort fun a b => (cmp a b).isLE := by
  have : Std.Symm fun a b => cmp a b ≠ .eq := symm_ne_eq
  refine List.Perm.eq_of_pairwise ?_ (pairwise_mergeSort l) (pairwise_mergeSort m)
    ((List.mergeSort_perm l _).trans (h.trans (List.mergeSort_perm m _).symm))
  intro a b ha hb hab hba
  rw [List.mem_mergeSort] at ha hb
  by_contra hne
  exact distinct.forall ha (h.mem_iff.mpr hb) hne (Std.OrientedCmp.isLE_antisymm hab hba)

end

/-! ### Evaluation on permuted rows -/

namespace Store

/-- Every resource has the same rows in two stores, in some order. -/
def SameRows (model : Model) (s t : Store) : Prop :=
  ∀ r ∈ model.resources, (s.rows r.name).Perm (t.rows r.name)

variable {model : Model} {s t : Store}

section

variable (same : SameRows model s t)

include same

/-- Stores with the same rows have the same related rows, in some order. -/
theorem relatedRows_perm {owner target : Resource} {name : String} {relation : Relation}
    (h : model.related owner name = .ok (relation, target)) (row : Row) :
    (s.relatedRows relation target row).Perm (t.relatedRows relation target row) := by
  rw [relatedRows_eq_filter, relatedRows_eq_filter]
  exact (same target (Model.mem_of_related h)).filter _

/-- A test on related rows has the same outcome when their clause has, without a fault. -/
theorem satisfiesPredicate_related_of_perm {r : Resource} {name : String} {clause : Clause}
    (hclause : ∀ relation target, model.related r name = .ok (relation, target) →
      Clause.Resolves model target clause ∧
        ∀ child, s.satisfies model target child clause = t.satisfies model target child clause)
    (row : Row) (negated : Bool) :
    s.satisfiesPredicate model r row (.related name negated clause) =
      t.satisfiesPredicate model r row (.related name negated clause) := by
  cases hrelated : model.related r name with
  | error why => simp [satisfiesPredicate, hrelated, bind, Except.bind]
  | ok found =>
    obtain ⟨relation, target⟩ := found
    obtain ⟨hresolves, hsame⟩ := hclause relation target hrelated
    have hs := fun child => satisfies_of_resolves model s target child clause hresolves
    have ht := fun child => (hsame child).symm.trans (hs child)
    rw [satisfiesPredicate_related model s r row negated _ hrelated hs,
      satisfiesPredicate_related model t r row negated _ hrelated ht,
      (relatedRows_perm same hrelated row).any_eq]

/-- Stores with the same rows count the same related rows. -/
theorem satisfiesPredicate_count_of_perm {r : Resource} {name : String}
    {comparator : CountComparator} {n : Int} (row : Row) :
    s.satisfiesPredicate model r row (.count name comparator n) =
      t.satisfiesPredicate model r row (.count name comparator n) := by
  cases hrelated : model.related r name with
  | error why => simp [satisfiesPredicate, hrelated, bind, Except.bind]
  | ok found =>
    obtain ⟨relation, target⟩ := found
    rw [satisfiesPredicate_count model s r row comparator n hrelated,
      satisfiesPredicate_count model t r row comparator n hrelated,
      (relatedRows_perm same hrelated row).length_eq]

/-- A predicate whose relations resolve does not depend on the order of rows. -/
theorem satisfiesPredicate_of_perm (r : Resource) (row : Row) (predicate : Predicate)
    (h : predicate.Resolves model r) :
    s.satisfiesPredicate model r row predicate = t.satisfiesPredicate model r row predicate := by
  induction predicate using Predicate.induct generalizing r row with
  | condition column test => rfl
  | date column bound day => rfl
  | contains column term => rfl
  | related name negated clause ih =>
    obtain ⟨relation, target, hrelated, hclause⟩ := h
    apply satisfiesPredicate_related_of_perm same
    intro relation' target' hrelated'
    obtain ⟨rfl, rfl⟩ := Prod.mk.inj (Except.ok.inj (hrelated.symm.trans hrelated'))
    exact ⟨hclause, fun child => satisfies_congr clause fun entry hentry =>
      ih entry hentry target child (hclause.of_mem hentry)⟩
  | count name comparator n => exact satisfiesPredicate_count_of_perm same row
  | group clause ih =>
    rw [satisfiesPredicate, satisfiesPredicate]
    exact satisfies_congr clause fun entry hentry => ih entry hentry r row (h.of_mem hentry)

/-- A search field does not depend on the order of rows, even where its relation leads nowhere. -/
theorem satisfiesPredicate_predicateOfField (r : Resource) (row : Row) (term field : String) :
    s.satisfiesPredicate model r row (Listing.predicateOfField term field) =
      t.satisfiesPredicate model r row (Listing.predicateOfField term field) := by
  rw [Listing.predicateOfField]
  cases Text.cutFirst '.' field.toList with
  | none => rfl
  | some parts =>
    apply satisfiesPredicate_related_of_perm same
    exact fun _ _ _ => ⟨⟨trivial, trivial⟩, fun _ => rfl⟩

end

/-- A group has the same outcome in two stores when its members have. -/
theorem satisfies_addGroup_congr {r : Resource} {row : Row} {clause other : Clause}
    {joiner : Joiner}
    (hclause : ∀ entry ∈ clause,
      s.satisfiesPredicate model r row entry.2 = t.satisfiesPredicate model r row entry.2)
    (hother : ∀ entry ∈ other,
      s.satisfiesPredicate model r row entry.2 = t.satisfiesPredicate model r row entry.2) :
    ∀ entry ∈ Clause.addGroup clause joiner other,
      s.satisfiesPredicate model r row entry.2 = t.satisfiesPredicate model r row entry.2 := by
  rw [Clause.addGroup]
  split
  · exact hclause
  · rw [List.forall_mem_append, List.forall_mem_singleton]
    refine ⟨hclause, ?_⟩
    rw [satisfiesPredicate, satisfiesPredicate]
    exact satisfies_congr other hother

/-- The clause of a listing does not depend on the order of rows. -/
theorem satisfies_listing_of_perm (same : SameRows model s t) {r : Resource} {flavor : Flavor}
    {params : ListParams} {eager columns : List String} {listing : Listing}
    (assembled : Listing.ofParams model r flavor params eager columns = .ok listing) (row : Row) :
    s.satisfies model r row listing.query.clause =
      t.satisfies model r row listing.query.clause := by
  obtain ⟨search, filters, _, _, hsearch, hfilters, _, _, _, _, rfl⟩ :=
    Listing.ofParams_eq_ok model r assembled
  obtain rfl := Listing.searchClause_eq_ok r hsearch
  have hsearch : ∀ entry ∈ Listing.entriesOfSearch r params.search,
      s.satisfiesPredicate model r row entry.2 = t.satisfiesPredicate model r row entry.2 := by
    cases params.search with
    | none => simp [Listing.entriesOfSearch]
    | some term =>
      rw [Listing.entriesOfSearch]
      split
      · simp
      · rw [List.forall_mem_map]
        exact fun field _ => satisfiesPredicate_predicateOfField same r row term field
  have hfilters : ∀ entry ∈ filters,
      s.satisfiesPredicate model r row entry.2 = t.satisfiesPredicate model r row entry.2 :=
    fun entry hentry => satisfiesPredicate_of_perm same r row entry.2
      ((Filtering.compile_resolves hfilters).of_mem hentry)
  have hcounts : ∀ entry ∈ params.counts.map Listing.entryOfBound,
      s.satisfiesPredicate model r row entry.2 = t.satisfiesPredicate model r row entry.2 := by
    rw [List.forall_mem_map]
    exact fun bound _ => satisfiesPredicate_count_of_perm same row
  -- each of the three groups is evaluated alike on its own
  apply satisfies_congr
  exact satisfies_addGroup_congr
    (satisfies_addGroup_congr (satisfies_addGroup_congr (by simp) hsearch) hfilters) hcounts

/-! ### Pages of permuted rows -/

/-- Rows that leave no ties are found in one order, however they are stored. -/
theorem matching_of_perm {r : Resource} {query : Query} {found : List Row}
    (rows : (s.rows r.name).Perm (t.rows r.name))
    (clause : ∀ row, s.satisfies model r row query.clause = t.satisfies model r row query.clause)
    (distinct : (s.rows r.name).Pairwise fun a b => Row.order query.order a b ≠ .eq)
    (h : s.matching model r query = .ok found) : t.matching model r query = .ok found := by
  have hmatch : s.isMatch model r query = t.isMatch model r query := by
    funext row
    rw [isMatch, isMatch, clause row]
  rw [matching, hmatch] at h
  obtain ⟨passed, hpassed, rfl⟩ := Outcome.map_eq_ok.mp h
  obtain ⟨hrows, rfl⟩ := passing_eq_ok.mp hpassed
  apply Outcome.map_eq_ok.mpr
  refine ⟨_, passing_eq_ok.mpr ⟨fun row hrow => hrows row (rows.mem_iff.mpr hrow), rfl⟩, ?_⟩
  exact (mergeSort_eq_of_perm (rows.filter _) (distinct.filter _)).symm

/-- A page that shows no relations is the same however the rows are stored. -/
theorem page_of_perm {r : Resource} {query : Query} {page : Page Json} {paging : Paging}
    (hr : model.requireResource query.resource = .ok r) (eager : query.eager = [])
    (rows : (s.rows r.name).Perm (t.rows r.name))
    (clause : ∀ row, s.satisfies model r row query.clause = t.satisfies model r row query.clause)
    (distinct : (s.rows r.name).Pairwise fun a b => Row.order query.order a b ≠ .eq)
    (h : s.page model query paging = .ok page) : t.page model query paging = .ok page := by
  have hproject : s.project model r query = t.project model r query := by
    funext row
    rw [project, project, eager]
    rfl
  rw [Store.page, Outcome.bind_of_ok hr] at h ⊢
  obtain ⟨found, hfound, h⟩ := Outcome.bind_eq_ok.mp h
  rw [Outcome.bind_of_ok (matching_of_perm rows clause distinct hfound), ← hproject]
  exact h

/-- A listing that shows no relations has the same pages, whatever their number and size, in two
stores whose resources have the same rows in different orders, unless two rows of the listed
resource tie on the key.  Over a resolved model every page is found. -/
theorem page_of_permuted {r : Resource} (hr : model.requireResource r.name = .ok r)
    {flavor : Flavor} {params : ListParams} {columns : List String} {listing : Listing}
    (assembled : Listing.ofParams model r flavor params [] columns = .ok listing)
    (same : SameRows model s t)
    (distinct : (s.rows r.name).Pairwise fun a b =>
      Json.orderOptional (Fields.get? a r.primaryKey) (Fields.get? b r.primaryKey) ≠ .eq)
    (paging : Paging) :
    (∀ page, s.page model listing.query paging = .ok page ↔
      t.page model listing.query paging = .ok page) ∧
      ∀ defs, Config.resolve defs = .ok model →
        ∃ page, s.page model listing.query paging = .ok page ∧
          t.page model listing.query paging = .ok page := by
  have hmember := Model.mem_of_requireResource hr
  have hperm := same r hmember
  have hclause := satisfies_listing_of_perm same assembled
  obtain ⟨hresource, heager, direction, hkey⟩ := Listing.query_of_ofParams model r assembled
  rw [← hresource] at hr
  -- the key is the last column of the order, so no two rows tie in it
  have hdistinct : (s.rows r.name).Pairwise fun a b => Row.order listing.query.order a b ≠ .eq :=
    distinct.imp fun differ => Row.order_ne_eq (List.mem_of_getLast? hkey) differ
  have hsymm : ∀ {a b : Row}, Row.order listing.query.order a b ≠ .eq →
      Row.order listing.query.order b a ≠ .eq := symm_ne_eq.symm _ _
  have hiff : ∀ page, s.page model listing.query paging = .ok page ↔
      t.page model listing.query paging = .ok page := by
    intro page
    constructor
    · exact page_of_perm hr heager hperm hclause hdistinct
    · exact page_of_perm hr heager hperm.symm (fun row => (hclause row).symm)
        ((hperm.pairwise_iff hsymm).mp hdistinct)
  refine ⟨hiff, ?_⟩
  intro defs resolved
  have hresolves := Listing.ofParams_resolves (Config.sound_of_resolve resolved) hmember
    (Config.columned_of_resolve resolved hmember) assembled
  have hrows := matching_of_resolves model s r listing.query hresolves
  obtain ⟨shown, hshown⟩ := Outcome.exists_mapM_eq_ok fun row _ =>
    exists_project_eq_ok model s r listing.query row (by simp [heager])
  have hpage := page_eq_ok model s r listing.query hr hrows hshown paging
  exact ⟨_, hpage, (hiff _).mp hpage⟩

/-- Posts of one title, and their comments, stored in two orders. -/
theorem page_of_permuted_journal :
    let posts := Config.resolveResource Config.postsDef
    let s : Store := ⟨[
      ("posts", [
        [("id", .int 1), ("title", .str "Lean")],
        [("id", .int 2), ("title", .str "Lean")],
        [("id", .int 3), ("title", .str "Lean"), ("deleted_at", .str "now")]]),
      ("comments", [
        [("id", .int 1), ("post_id", .int 1), ("body", .str "first")],
        [("id", .int 2), ("post_id", .int 2), ("body", .str "second")]])]⟩
    let t : Store := ⟨[
      ("comments", [
        [("id", .int 2), ("post_id", .int 2), ("body", .str "second")],
        [("id", .int 1), ("post_id", .int 1), ("body", .str "first")]]),
      ("posts", [
        [("id", .int 3), ("title", .str "Lean"), ("deleted_at", .str "now")],
        [("id", .int 2), ("title", .str "Lean")],
        [("id", .int 1), ("title", .str "Lean")]])]⟩
    let params : ListParams := {
      search := some "lean"
      sort := some ⟨"title", .descending⟩
      counts := [⟨"comments", .exactly, 1, false⟩] }
    SameRows Config.journal s t ∧
      ∃ listing page, Listing.ofParams Config.journal posts .api params [] ["id"] = .ok listing ∧
        s.page Config.journal listing.query ⟨1, 1⟩ = .ok page ∧
        t.page Config.journal listing.query ⟨1, 1⟩ = .ok page := by
  intro posts s t params
  have same : SameRows Config.journal s t := by
    intro r hr
    rcases List.mem_cons.mp hr with rfl | hr
    · exact (List.reverse_perm _).symm
    · rw [List.mem_singleton.mp hr]
      exact (List.reverse_perm _).symm
  have assembled : Listing.ofParams Config.journal posts .api params [] ["id"] = .ok _ := rfl
  have distinct : (s.rows posts.name).Pairwise fun a b =>
      Json.orderOptional (Fields.get? a posts.primaryKey) (Fields.get? b posts.primaryKey) ≠ .eq := by
    decide
  obtain ⟨page, hs, ht⟩ :=
    (page_of_permuted rfl assembled same distinct ⟨1, 1⟩).2 _ Config.resolve_journal
  exact ⟨same, _, page, assembled, hs, ht⟩

end Store

end Records
