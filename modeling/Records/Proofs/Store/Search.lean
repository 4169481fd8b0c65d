import Records.Proofs.Store.Listing
import Records.Proofs.Text.Lowercase

/-!
# What a search finds

A search compares texts in lower case, and the lower case of a capital sigma depends on whether a
word ends there.  So a term that occurs in a text is found at its place exactly when the capital
sigmas of the term end words in the text as they do in the term alone, as all do when there are none
(`occurrence_found_iff`); a term that breaks off inside a word may be missed
(`missed_inside_word`).
-/

set_option autoImplicit false

namespace Records

/-- A text contains a term in it whose sigmas stay as they are there. -/
theorem containsTerm_of_keepsSigmas {before after : List Char} {term : String}
    (h : Text.KeepsSigmas before term.toList after) :
    containsTerm term (String.ofList (before ++ term.toList ++ after)) = true := by
  rw [containsTerm, String.toList_ofList]
  exact Text.occursIn_of_keepsSigmas h

namespace Store

variable {model : Model} {store : Store} {r : Resource} {row : Row}

/-- Whether a text stands in a search field of a row: in a column, or in a column of some live
related row. -/
def HoldsText (model : Model) (store : Store) (r : Resource) (row : Row) (field text : String) :
    Prop :=
  match Text.cutFirst '.' field.toList with
  | none => Fields.get? row field = some (.str text)
  | some (name, column) =>
    ∃ relation target, model.related r (String.ofList name) = .ok (relation, target) ∧
      ∃ child ∈ store.relatedRows relation target row,
        Fields.get? child (String.ofList column) = some (.str text)

/-- A column with a text contains a term when the text does. -/
theorem columnContains_of_str {column term text : String}
    (h : Fields.get? row column = some (.str text)) :
    columnContains row column term = containsTerm term text := by
  rw [columnContains, h]
  rfl

/-- A search field contains a term when a text in it does. -/
theorem fieldContains_of_holdsText {field term text : String}
    (h : store.HoldsText model r row field text) (hcontains : containsTerm term text = true) :
    store.fieldContains model r row term field = true := by
  rw [HoldsText] at h
  rw [fieldContains]
  cases hcut : Text.cutFirst '.' field.toList with
  | none =>
    rw [hcut] at h
    exact (columnContains_of_str h).trans hcontains
  | some cut =>
    rw [hcut] at h
    obtain ⟨relation, target, hrelated, child, hchild, htext⟩ := h
    simp only [hrelated]
    exact List.any_eq_true.mpr ⟨child, hchild, (columnContains_of_str htext).trans hcontains⟩

/-- A row passes a search when one of the searched fields contains the term. -/
theorem passesSearch_of_fieldContains {field term : String} (hfield : field ∈ r.searchable)
    (h : store.fieldContains model r row term field = true) :
    store.passesSearch model r (some term) row = true := by
  have hany : r.searchable.any (store.fieldContains model r row term) = true :=
    List.any_eq_true.mpr ⟨field, hfield, h⟩
  rw [passesSearch, hany, Bool.or_true]

/-- The group for a search holds for the rows that pass the search. -/
theorem satisfies_searchGroup (columned : r.Columned model) {search : Option String}
    {clause : Clause} (h : Listing.searchClause r search = .ok clause) :
    store.satisfies model r row (Clause.addGroup [] .and clause) =
      .ok (store.passesSearch model r search row) := by
  obtain rfl := Listing.searchClause_eq_ok r h
  have hresolves : Clause.Resolves model r (Listing.entriesOfSearch r search) :=
    (Listing.entriesOfSearch_wellFormed columned (Nat.le_refl 1) search).resolves
  have hgroup : Clause.Resolves model r
      (Clause.addGroup [] .and (Listing.entriesOfSearch r search)) :=
    (Clause.resolves_addGroup model r [] _ .and).mpr ⟨trivial, hresolves⟩
  rw [satisfies_of_resolves model store r row _ hgroup,
    value_addGroup model store r row [] _ (List.forall_mem_nil _) hresolves,
    value_entriesOfSearch]
  rfl

/-- Where a term stands in a text of a search field, the lower case of the text has the lower case
of the term exactly when the capital sigmas of the term end words there as they do in the term
alone, as all do when it has none.  Then the text contains the term, and its row passes the search
group of every listing that searches the term. -/
theorem occurrence_found_iff {defs : Definitions} (resolved : Config.resolve defs = .ok model)
    (hr : r ∈ model.resources) {flavor : Flavor} {params : ListParams}
    {eager columns : List String} {listing : Listing}
    (assembled : Listing.ofParams model r flavor params eager columns = .ok listing)
    {term field : String} (asked : params.search = some term) (searched : field ∈ r.searchable)
    (before after : List Char)
    (stored : store.HoldsText model r row field
      (String.ofList (before ++ term.toList ++ after))) :
    (((Text.lowerChars (before ++ term.toList ++ after)).drop (Text.lowerChars before).length).take
        (Text.lowerChars term.toList).length = Text.lowerChars term.toList ↔
      Text.KeepsSigmas before term.toList after) ∧
    (Text.capitalSigma ∉ term.toList → Text.KeepsSigmas before term.toList after) ∧
    (Text.KeepsSigmas before term.toList after →
      (∀ target child column,
        Fields.get? child column =
            some (.str (String.ofList (before ++ term.toList ++ after))) →
          store.satisfiesPredicate model target child (.contains column term) = .ok true) ∧
      ∃ search filters counts,
        listing.query.clause =
            Clause.addGroup (Clause.addGroup (Clause.addGroup [] .and search) .and filters)
              .and counts ∧
          Listing.searchClause r (some term) = .ok search ∧
          store.satisfies model r row (Clause.addGroup [] .and search) = .ok true) := by
  refine ⟨Text.lowerChars_at_place_iff before term.toList after,
    fun hnone => Text.keepsSigmas_of_not_mem hnone before after, fun hkeeps => ?_⟩
  have hcontains := containsTerm_of_keepsSigmas hkeeps
  constructor
  · intro target child column htext
    rw [satisfiesPredicate, htext]
    exact congrArg Except.ok hcontains
  · obtain ⟨search, filters, _, _, hsearch, _, _, _, _, _, rfl⟩ :=
      Listing.ofParams_eq_ok model r assembled
    rw [asked] at hsearch
    -- one field with the term is enough for the whole group of the search
    have hpasses := passesSearch_of_fieldContains searched
      (fieldContains_of_holdsText stored hcontains)
    have hgroup : store.satisfies model r row (Clause.addGroup [] .and search) = .ok _ :=
      satisfies_searchGroup (Config.columned_of_resolve resolved hr) hsearch
    exact ⟨search, filters, _, rfl, hsearch, hgroup.trans (congrArg Except.ok hpasses)⟩

/-- A comment in which the term ends a word, as it does alone. -/
theorem occurrence_found_iff_journal :
    let posts := Config.resolveResource Config.postsDef
    let post : Row := [("id", .int 1), ("title", .str "other")]
    let comment : Row := [("id", .int 7), ("post_id", .int 1), ("body", .str "ΟΔΟΣ ΑΒ")]
    let store : Store := ⟨[("posts", [post]), ("comments", [comment])]⟩
    Text.KeepsSigmas ['Ο'] "ΔΟΣ".toList [' ', 'Α', 'Β'] ∧
      ∃ listing, Listing.ofParams Config.journal posts .api { search := some "ΔΟΣ" } [] [] =
          .ok listing ∧
        ∃ search filters counts, listing.query.clause =
            Clause.addGroup (Clause.addGroup (Clause.addGroup [] .and search) .and filters)
              .and counts ∧
          Listing.searchClause posts (some "ΔΟΣ") = .ok search ∧
          store.satisfies Config.journal posts post (Clause.addGroup [] .and search) =
            .ok true := by
  intro posts post comment store
  have assembled : Listing.ofParams Config.journal posts .api { search := some "ΔΟΣ" } [] [] =
      .ok _ := rfl
  have searched : "comments.body" ∈ posts.searchable := List.mem_cons_of_mem _ List.mem_cons_self
  have stored : store.HoldsText Config.journal posts post "comments.body"
      (String.ofList (['Ο'] ++ "ΔΟΣ".toList ++ [' ', 'Α', 'Β'])) := by
    have htext : String.ofList (['Ο'] ++ "ΔΟΣ".toList ++ [' ', 'Α', 'Β']) = "ΟΔΟΣ ΑΒ" := by
      decide +kernel
    rw [htext]
    exact ⟨_, _, rfl, comment, List.mem_cons_self, rfl⟩
  obtain ⟨hplace, _, hfound⟩ := occurrence_found_iff Config.resolve_journal List.mem_cons_self
    assembled rfl searched _ _ stored
  have hkeeps := hplace.mp (by decide +kernel)
  exact ⟨hkeeps, _, assembled, (hfound hkeeps).2⟩

/-- A term that breaks off inside a word: its sigma ends a word in the term alone, and has another
lower case there. -/
theorem missed_inside_word :
    let posts := Config.resolveResource Config.postsDef
    let post : Row := [("id", .int 1), ("title", .str "ΑΣΑ")]
    let store : Store := ⟨[("posts", [post])]⟩
    "ΑΣ".toList <:+: "ΑΣΑ".toList ∧ "title" ∈ posts.searchable ∧
      store.satisfiesPredicate Config.journal posts post (.contains "title" "ΑΣ") = .ok false ∧
      ∃ search, Listing.searchClause posts (some "ΑΣ") = .ok search ∧
        store.satisfies Config.journal posts post (Clause.addGroup [] .and search) =
          .ok false := by
  intro posts post store
  have hpart : "ΑΣ".toList <:+: "ΑΣΑ".toList := by decide +kernel
  have hmissed : containsTerm "ΑΣ" "ΑΣΑ" = false := by decide +kernel
  have hpasses : store.passesSearch Config.journal posts (some "ΑΣ") post = false := by
    decide +kernel
  have hsearch : Listing.searchClause posts (some "ΑΣ") = .ok _ := rfl
  have hgroup : store.satisfies Config.journal posts post _ = .ok _ := satisfies_searchGroup
    (Config.columned_of_resolve Config.resolve_journal List.mem_cons_self) hsearch
  exact ⟨hpart, List.mem_cons_self, congrArg Except.ok hmissed, _, hsearch,
    hgroup.trans (congrArg Except.ok hpasses)⟩

end Store

end Records
