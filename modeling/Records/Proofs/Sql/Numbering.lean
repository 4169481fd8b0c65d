import Records.Proofs.Sql.Placeholders

/-!
# The numbering of a statement

The placeholders of a whole statement are those of its values, in order
(`placeholders_match_values`), although a select shows its restriction after what it selects and an
update names its row after what it sets.  The statement that counts the rows of a page selects from
the same rows, with the values of the page up to its two numbers.
-/

set_option autoImplicit false

namespace Records.Sql

/-- A statement whose placeholders are those of its values, in order. -/
def Bound.Matches {α : Type} (text : α → List Char) (bound : Bound α) : Prop :=
  dollarTokens (text bound.statement) = placeholderTokens (List.range' 1 bound.values.length)

/-- A text that shows the numbers of its values from one on matches them. -/
theorem matches_of_shows {α : Type} {text : α → List Char} {bound : Bound α} {count : Nat}
    (h : Shows (text bound.statement) (List.range' 1 count))
    (hcount : bound.values.length = count) : bound.Matches text := by
  rw [Bound.Matches, hcount]
  exact dollarTokens_of_shows h

/-- The numbers from one on end with the last. -/
theorem range'_one_succ (n : Nat) : List.range' 1 (n + 1) = List.range' 1 n ++ [n + 1] := by
  rw [List.range'_1_concat, Nat.add_comm 1]

/-! ## Selects -/

/-- No text shows no placeholder. -/
theorem eq_nil_of_shows_nil {ns : List Nat} (h : Shows [] ns) : ns = [] :=
  List.map_eq_nil_iff.mp (dollarTokens_of_shows h).symm

/-- The conditions of a restriction show their placeholders in whichever way they are written. -/
theorem shows_conditionParts {conditions : List (Joiner × Condition)} {ns : List Nat}
    (h : Shows (chainText conditions) ns) :
    ∃ numbers, List.Forall₂ Shows
      (if conditions.isEmpty then []
        else if isDisjunctive conditions then ['(' :: (chainText conditions ++ [')'])]
        else [chainText conditions]) numbers ∧ numbers.flatten = ns := by
  cases conditions with
  | nil => exact ⟨[], .nil, (eq_nil_of_shows_nil h).symm⟩
  | cons first rest =>
    refine ⟨[ns], ?_, List.flatten_singleton⟩
    rw [List.isEmpty_cons, if_neg Bool.false_ne_true]
    split
    · exact .cons h.parenthesized .nil
    · exact .cons h .nil

/-- A restriction shows the placeholders of its conditions, the test on the trash mark none. -/
theorem shows_restriction (mark : Option (ColumnRef × Bool))
    {conditions : List (Joiner × Condition)} {ns : List Nat} (h : Shows (chainText conditions) ns) :
    Shows (Restriction.text ⟨mark, conditions⟩) ns := by
  obtain ⟨numbers, hparts, hnumbers⟩ := shows_conditionParts h
  have hall : ∃ numbers, List.Forall₂ Shows (Restriction.parts ⟨mark, conditions⟩) numbers ∧
      numbers.flatten = ns := by
    cases mark with
    | none => exact ⟨numbers, hparts, hnumbers⟩
    | some mark => exact ⟨[] :: numbers, .cons (shows_mark mark) hparts, hnumbers⟩
  obtain ⟨numbers, hparts, rfl⟩ := hall
  have hwhere : leads " WHERE ".toList := rfl
  rw [Restriction.text]
  generalize Restriction.parts ⟨mark, conditions⟩ = parts at hparts
  cases hparts with
  | nil => exact Shows.fixed rfl
  | cons hfirst hrest => exact (shows_separated rfl rfl (.cons hfirst hrest)).after hwhere

/-- A select that is shown with each row has no placeholder. -/
theorem shows_embedded (e : Embedded) : Shows e.text [] := by
  obtain ⟨name, many, scope⟩ := e
  have hrow : leads "row_to_json(".toList := rfl
  have has : leads " AS ".toList := rfl
  have hrows := ((shows_alias scope.child).after hrow).before (b := [')']) rfl rfl
  cases many with
  | true =>
    have hselect : leads "(SELECT COALESCE(json_agg(".toList := rfl
    have hlist := (hrows.after hselect).before (b := "), '[]'::json)".toList) rfl rfl
    have hrelated := (hlist.append rfl (shows_source scope)).before (b := [')']) rfl rfl
    exact hrelated.between rfl has (shows_quoted name)
  | false =>
    have hselect : leads "(SELECT ".toList := rfl
    have hrelated := (hrows.after hselect).append rfl (shows_source scope)
    have hfirst := hrelated.before (b := " LIMIT 1)".toList) rfl rfl
    exact hfirst.between rfl has (shows_quoted name)

/-- A select list has no placeholder. -/
theorem shows_shown (s : Selection) : Shows s.shown [] := by
  apply shows_listed_nil
  intro part hpart
  rcases List.mem_append.mp hpart with hcolumn | hembedded
  · split at hcolumn
    · rw [List.mem_singleton.mp hcolumn]
      exact Shows.fixed rfl
    · obtain ⟨column, _, rfl⟩ := List.mem_map.mp hcolumn
      exact shows_column _
  · obtain ⟨e, _, rfl⟩ := List.mem_map.mp hembedded
    exact shows_embedded e

/-- An order has no placeholder. -/
theorem shows_order (order : List (String × SortDirection)) : Shows (orderText order) [] := by
  have horder : leads " ORDER BY ".toList := rfl
  rw [orderText]
  split
  · exact Shows.fixed rfl
  · apply Shows.after horder
    apply shows_listed_nil
    intro part hpart
    obtain ⟨⟨column, direction⟩, _, rfl⟩ := List.mem_map.mp hpart
    have hdirection : Shows (directionText direction) [] := by
      cases direction <;> exact Shows.fixed rfl
    exact (shows_column _).append rfl hdirection.blank

/-- The main table has no placeholder. -/
theorem shows_mainTable (t : TableRef) : Shows (mainTable t) [] :=
  (shows_table t).append rfl (shows_alias .main).blank

/-- What a selection takes its rows from: its table and its restriction. -/
def Selection.source (s : Selection) : List Char :=
  " FROM ".toList ++ mainTable s.table ++ s.restriction.text

/-- The text of a selection around its source. -/
theorem Selection.text_eq (s : Selection) :
    s.text = "SELECT ".toList ++ s.shown ++ s.source ++ orderText s.order ++ s.extent.text := by
  have hsource : ∀ a b c d : List Char, a ++ b ++ c ++ d = a ++ (b ++ c ++ d) := by simp
  exact congrArg (· ++ orderText s.order ++ s.extent.text) (hsource _ _ _ _)

/-- A restriction begins with a blank, if there is one. -/
theorem separated_restriction (w : Restriction) : Separated w.text := by
  rw [Restriction.text]
  split <;> rfl

/-- An order begins with a blank, if there is one. -/
theorem separated_order (order : List (String × SortDirection)) : Separated (orderText order) := by
  rw [orderText]
  split <;> rfl

/-- The numbers of the placeholders that an extent shows. -/
def Extent.numbers : Extent → List Nat
  | .window limit offset => [limit, offset]
  | .first => []

/-- A first row has no placeholder of its own, a window two. -/
theorem shows_extent (extent : Extent) : Shows extent.text extent.numbers := by
  cases extent with
  | window limit offset =>
    have hlimit : leads " LIMIT ".toList := rfl
    exact ((shows_bare limit).after hlimit).between rfl rfl (shows_bare offset)
  | first => exact Shows.fixed rfl

/-- An extent begins with a blank. -/
theorem separated_extent (extent : Extent) : Separated extent.text := by
  cases extent <;> rfl

/-- A selection shows the placeholders of its restriction and then those of its extent. -/
theorem shows_selection (s : Selection) {ns : List Nat} (h : Shows s.restriction.text ns) :
    Shows s.text (ns ++ s.extent.numbers) := by
  have hselect : leads "SELECT ".toList := rfl
  have hfrom := ((shows_shown s).after hselect).between (b := " FROM ".toList) rfl rfl
    (shows_mainTable s.table)
  have hrows := (hfrom.append (separated_restriction s.restriction) h).append
    (separated_order s.order) (shows_order s.order)
  rw [List.append_nil] at hrows
  exact hrows.append (separated_extent s.extent) (shows_extent s.extent)

/-- A count shows the placeholders of its restriction. -/
theorem shows_tally (t : Tally) {ns : List Nat} (h : Shows t.restriction.text ns) :
    Shows t.text ns := by
  have hcount : leads "SELECT COUNT(*) FROM ".toList := rfl
  exact ((shows_mainTable t.table).after hcount).append (separated_restriction t.restriction) h

/-- The restriction of a query has the placeholders of the values bound with it. -/
theorem Parts.shows_restriction {model : Model} {query : Query} (parts : Parts model query)
    (hopen : ∀ r ∈ model.resources, HasOpenTypes r) :
    Shows parts.restriction.text (List.range' 1 parts.counted.values.length) := by
  obtain ⟨conditions, hconditions, hrestriction⟩ := restriction_built parts.restricts
  have hresource := hopen parts.resource (Model.mem_of_requireResource parts.requires)
  obtain ⟨values, hvalues, hshows⟩ :=
    chain_spans (fun entry _ => predicate_spans hopen entry.2 hresource .main) hconditions
  rw [hrestriction, hvalues]
  exact Sql.shows_restriction _ hshows

/-- The relations that are shown bind no values. -/
theorem Parts.length_shown {model : Model} {query : Query} (parts : Parts model query) :
    parts.shown.values.length = parts.counted.values.length := by
  rw [values_of_embeddedOf parts.embeds]

/-- What a page statement and the statement that counts its rows have in common. -/
structure Paired (paging : Paging) (page : Bound Selection) (tally : Bound Tally) : Prop where
  page_matches : page.Matches Selection.text
  tally_matches : tally.Matches Tally.text
  page_text : page.statement.text = "SELECT ".toList ++ page.statement.shown ++
    page.statement.source ++ orderText page.statement.order ++ page.statement.extent.text
  tally_text : tally.statement.text = "SELECT COUNT(*)".toList ++ page.statement.source
  /-- The last two values of the page are its length and the number of rows before it. -/
  values : page.values = tally.values ++ [.int paging.perPage, .int paging.offset]
  extent : page.statement.extent = .window (tally.values.length + 1) (tally.values.length + 2)

/-- The first statement has exactly the placeholders of its values. -/
theorem firstOf_matches {model : Model} (hopen : ∀ r ∈ model.resources, HasOpenTypes r)
    {query : Query} {first : Bound Selection} (h : firstOf model query = .ok first) :
    first.Matches Selection.text := by
  obtain ⟨parts, rfl⟩ := firstOf_built h
  have hshows : Shows _ (_ ++ []) :=
    shows_selection (parts.selection .first) (parts.shows_restriction hopen)
  rw [List.append_nil] at hshows
  exact matches_of_shows hshows parts.length_shown

/-- The page and count statements have exactly the placeholders of their values and share all but
the last two. -/
theorem pageOf_paired {model : Model} (hopen : ∀ r ∈ model.resources, HasOpenTypes r)
    {query : Query} {paging : Paging} {page : Bound Selection} {tally : Bound Tally}
    (h : pageOf model query paging = .ok (page, tally)) : Paired paging page tally := by
  obtain ⟨parts, rfl, rfl⟩ := pageOf_built h
  have hrestriction := parts.shows_restriction hopen
  refine ⟨?_, ?_, Selection.text_eq _, rfl, rfl, rfl⟩
  · have hnumbers : List.range' 1 parts.counted.values.length ++
        [parts.counted.values.length + 1, parts.counted.values.length + 2] =
        List.range' 1 (parts.counted.values.length + 2) := by
      rw [range'_one_succ, range'_one_succ, List.append_assoc]
      rfl
    have hshows := shows_selection (parts.selection (.window (parts.counted.values.length + 1)
      (parts.counted.values.length + 2))) hrestriction
    rw [show Extent.numbers _ = [_, _] from rfl, hnumbers] at hshows
    exact matches_of_shows hshows List.length_append
  · exact matches_of_shows (shows_tally ⟨_, parts.restriction⟩ hrestriction) rfl

/-! ## Writes -/

/-- The placeholders of columns of a resource with open types have open casts. -/
theorem columnPlaceholders_open {r : Resource} (hopen : HasOpenTypes r) (bound : Nat)
    (names : List String) :
    ∀ p ∈ (columnPlaceholders r bound names).map Prod.snd, p.HasOpenCast := by
  induction names generalizing bound with
  | nil => exact List.forall_mem_nil _
  | cons name rest ih => exact List.forall_mem_cons.mpr ⟨columnType?_open hopen name, ih _⟩

/-- The placeholders of columns are numbered on from the values bound before. -/
theorem map_number_columnPlaceholders (r : Resource) (bound : Nat) (names : List String) :
    ((columnPlaceholders r bound names).map Prod.snd).map Placeholder.number =
      List.range' (bound + 1) names.length := by
  induction names generalizing bound with
  | nil => rfl
  | cons name rest ih => exact congrArg ((bound + 1) :: ·) (ih (bound + 1))

/-- The placeholders of what a column is set to. -/
def Assigned.placeholders : Assigned → List Placeholder
  | .value p => [p]
  | .now => []

/-- The placeholders of the keys of some rows. -/
def Addressed.placeholders : Addressed → List Placeholder
  | .one id => [id]
  | .anyOf ids => ids

/-- A text with certain placeholders, provided that their casts are open. -/
def ShowsAll (text : List Char) (ps : List Placeholder) : Prop :=
  (∀ p ∈ ps, p.HasOpenCast) → Shows text (ps.map Placeholder.number)

/-- An assignment shows the placeholder of its value, if it is set to one. -/
theorem shows_assigned (set : String × Assigned) :
    ShowsAll (assignedText set) set.2.placeholders := by
  obtain ⟨column, assigned⟩ := set
  intro hcast
  cases assigned with
  | value p =>
    have hp := shows_placeholder (hcast p List.mem_cons_self)
    exact (shows_quoted column).between (b := " = ".toList) rfl rfl hp
  | now =>
    have hnow : Shows "NOW()".toList [] := Shows.fixed rfl
    exact (shows_quoted column).between (b := " = ".toList) rfl rfl hnow

/-- Assignments show their placeholders in turn. -/
theorem shows_assignments (sets : List (String × Assigned)) :
    ShowsAll (listed (sets.map assignedText)) (sets.flatMap fun set => set.2.placeholders) := by
  intro hcasts
  have hparts : List.Forall₂ Shows (sets.map assignedText)
      (sets.map fun set => set.2.placeholders.map Placeholder.number) := by
    rw [List.forall₂_map_left_iff, List.forall₂_map_right_iff]
    refine List.forall₂_same.mpr fun set hset => shows_assigned set fun p hp => hcasts p ?_
    exact List.mem_flatMap.mpr ⟨set, hset, hp⟩
  rw [List.map_flatMap, List.flatMap_def]
  exact shows_listed hparts

/-- Addressed rows show the placeholders of their keys. -/
theorem shows_addressed (primaryKey : String) (addressed : Addressed) :
    ShowsAll (match addressed with
      | .one id => quoted primaryKey ++ " = ".toList ++ id.text
      | .anyOf ids =>
        if ids.isEmpty then "1 = 0".toList
        else quoted primaryKey ++ " IN (".toList ++ listed (ids.map Placeholder.text) ++ [')'])
      addressed.placeholders := by
  intro hcasts
  have hkey := shows_quoted primaryKey
  cases addressed with
  | one id =>
    have hid := shows_placeholder (hcasts id List.mem_cons_self)
    exact hkey.between (b := " = ".toList) rfl rfl hid
  | anyOf ids =>
    cases ids with
    | nil => exact Shows.fixed rfl
    | cons id others =>
      have hids := hkey.between (b := " IN (".toList) rfl rfl (shows_placeholders hcasts)
      exact hids.before rfl rfl

/-- The rows of a change show the placeholders of their keys. -/
theorem shows_rows (rows : Rows) : ShowsAll rows.text rows.addressed.placeholders := by
  obtain ⟨table, primaryKey, addressed, softDeleteColumn⟩ := rows
  intro hcasts
  have haddressed := shows_addressed primaryKey addressed hcasts
  cases softDeleteColumn with
  | none => exact haddressed.before rfl rfl
  | some column =>
    have hmark := ((shows_quoted column).before (b := " IS NULL".toList) rfl rfl).after
      (a := " AND ".toList) rfl
    have hrows := haddressed.append rfl hmark
    rw [List.append_nil] at hrows
    exact hrows

/-- The placeholders of a change, in the order of its text. -/
def Change.placeholders : Change → List Placeholder
  | .insert _ values => values.map Prod.snd
  | .fetch rows => rows.addressed.placeholders
  | .update rows sets _ =>
    (sets.flatMap fun set => set.2.placeholders) ++ rows.addressed.placeholders
  | .delete rows _ => rows.addressed.placeholders

/-- What a change returns has no placeholder. -/
theorem shows_returning (returning : Bool) : Shows (returningText returning) [] := by
  cases returning <;> exact Shows.fixed rfl

/-- What a change returns begins with a blank, if there is anything. -/
theorem separated_returning (returning : Bool) : Separated (returningText returning) := by
  cases returning <;> rfl

/-- An insertion shows the placeholders of its values in turn. -/
theorem shows_insert (table : TableRef) (values : List (String × Placeholder)) :
    ShowsAll (Change.text (.insert table values)) (values.map Prod.snd) := by
  intro hcasts
  have hinto : leads "INSERT INTO ".toList := rfl
  have htable := (shows_table table).after hinto
  cases values with
  | nil => exact (htable.before (b := " DEFAULT VALUES".toList) rfl rfl).before rfl rfl
  | cons value rest =>
    have hnames : Shows (listed ((value :: rest).map fun value => quoted value.1)) [] := by
      apply shows_listed_nil
      intro part hpart
      obtain ⟨field, _, rfl⟩ := List.mem_map.mp hpart
      exact shows_quoted field.1
    have hvalues := shows_placeholders hcasts
    rw [List.map_map] at hvalues
    have hopen : leads " (".toList := rfl
    have hboth := (hnames.after hopen).between (b := ") VALUES (".toList) rfl rfl hvalues
    exact (htable.append rfl (hboth.before (b := [')']) rfl rfl)).before rfl rfl

/-- A change has the placeholders of its parts, in the order in which it shows them. -/
theorem shows_change (change : Change) : ShowsAll change.text change.placeholders := by
  intro hcasts
  cases change with
  | insert table values => exact shows_insert table values hcasts
  | fetch rows =>
    have hselect : leads "SELECT * FROM ".toList := rfl
    exact ((shows_table rows.table).after hselect).between (b := " WHERE ".toList) rfl rfl
      (shows_rows rows hcasts)
  | update rows sets returning =>
    obtain ⟨hsets, hrows⟩ := List.forall_mem_append.mp hcasts
    have hupdate : leads "UPDATE ".toList := rfl
    have hassigned := ((shows_table rows.table).after hupdate).between (b := " SET ".toList) rfl rfl
      (shows_assignments sets hsets)
    have hwhere := hassigned.between (b := " WHERE ".toList) rfl rfl (shows_rows rows hrows)
    have htext := hwhere.append (separated_returning returning) (shows_returning returning)
    rw [List.append_nil, List.nil_append, ← List.map_append] at htext
    exact htext
  | delete rows returning =>
    have hdelete : leads "DELETE FROM ".toList := rfl
    have hwhere := ((shows_table rows.table).after hdelete).between (b := " WHERE ".toList) rfl rfl
      (shows_rows rows hcasts)
    have htext := hwhere.append (separated_returning returning) (shows_returning returning)
    rw [List.append_nil] at htext
    exact htext

/-- Fields are bound in their order, each to the placeholder of its column. -/
theorem placeholders_columns (r : Resource) (values : List BindValue) (data : Fields) :
    placeholders r values data =
      (columnPlaceholders r values.length (data.map Prod.fst),
        values ++ data.map (boundValue r)) := by
  refine Prod.ext (placeholders_fst r values data) ?_
  rw [placeholders_eq]

/-- A change whose placeholders are numbered from one on matches its values. -/
theorem matches_of_placeholders {change : Bound Change}
    (hcasts : ∀ p ∈ change.statement.placeholders, p.HasOpenCast)
    (hnumbers : change.statement.placeholders.map Placeholder.number =
      List.range' 1 change.values.length) : change.Matches Change.text := by
  have hshows := shows_change change.statement hcasts
  rw [hnumbers] at hshows
  exact matches_of_shows hshows rfl

/-- A removal has the placeholders of its rows, be they marked or deleted. -/
theorem remove_placeholders (rows : Rows) (returning : Bool) :
    (remove rows returning).placeholders = rows.addressed.placeholders := by
  rw [remove]
  cases rows.softDeleteColumn <;> rfl

/-- A statement that removes rows has the placeholders of their keys. -/
theorem remove_matches {rows : Rows} (returning : Bool) {values : List BindValue}
    (hcasts : ∀ p ∈ rows.addressed.placeholders, p.HasOpenCast)
    (hnumbers : rows.addressed.placeholders.map Placeholder.number =
      List.range' 1 values.length) :
    Bound.Matches Change.text ⟨remove rows returning, values⟩ := by
  apply matches_of_placeholders
  · rw [remove_placeholders]
    exact hcasts
  · rw [remove_placeholders]
    exact hnumbers

/-- Columns that are set to values have their placeholders, and the time of the change has none. -/
theorem placeholders_sets (values : List (String × Placeholder)) (stamps : Bool) :
    ((values.map fun ((column, p) : String × Placeholder) => (column, Assigned.value p)) ++
        if stamps then [(Resource.updatedColumn, Assigned.now)] else []).flatMap
      (fun set : String × Assigned => set.2.placeholders) = values.map Prod.snd := by
  rw [List.flatMap_append, List.flatMap_map]
  cases stamps with
  | false => simp [Assigned.placeholders, List.map_eq_flatMap]
  | true => simp [Assigned.placeholders, List.map_eq_flatMap]

section

variable {r : Resource} (hopen : HasOpenTypes r)

include hopen

/-- An insertion has exactly the placeholders of its values. -/
theorem insert_matches (data : Fields) : (insert r data).Matches Change.text := by
  have hnumbers := map_number_columnPlaceholders r 0 ((columnFields r data).map Prod.fst)
  simp only [insert, placeholders_columns]
  apply matches_of_placeholders
  · exact columnPlaceholders_open hopen 0 _
  · simpa [Change.placeholders] using hnumbers

/-- An update has exactly the placeholders of its values, that of the key last. -/
theorem update_matches (id : Json) (data : Fields) : (update r id data).Matches Change.text := by
  have hcasts := columnPlaceholders_open hopen 0 ((r.changedFields data).map Prod.fst)
  have hnumbers := map_number_columnPlaceholders r 0 ((r.changedFields data).map Prod.fst)
  have hkey := columnType?_open hopen r.primaryKey
  simp only [update, placeholders_columns, rowOf_fst, rowOf_snd, List.length_nil, List.nil_append]
  split
  · rename_i hempty
    rw [List.isEmpty_iff.mp hempty]
    exact matches_of_placeholders (List.forall_mem_singleton.mpr hkey) rfl
  · -- the placeholder of the key comes after those of the fields
    apply matches_of_placeholders
    · rw [Change.placeholders, placeholders_sets]
      exact List.forall_mem_append.mpr ⟨hcasts, List.forall_mem_singleton.mpr hkey⟩
    · rw [Change.placeholders, placeholders_sets, List.map_append, hnumbers, List.length_append,
        List.length_singleton, range'_one_succ, List.length_map, List.length_map]
      rfl

/-- A deletion has exactly the placeholder of its key. -/
theorem delete_matches (id : Json) : (delete r id).Matches Change.text := by
  have hkey := columnType?_open hopen r.primaryKey
  simp only [delete, rowOf_fst, rowOf_snd]
  exact remove_matches true (List.forall_mem_singleton.mpr hkey) rfl

/-- A deletion of several rows has exactly the placeholders of their keys. -/
theorem deleteIn_matches (ids : List Json) : (deleteIn r ids).Matches Change.text := by
  have hnumbers := map_number_columnPlaceholders r 0
    ((ids.map fun id => (r.primaryKey, id)).map Prod.fst)
  simp only [deleteIn, placeholders_columns]
  apply remove_matches
  · exact columnPlaceholders_open hopen 0 _
  · simpa [Addressed.placeholders] using hnumbers

end

/-! ## All statements -/

/-- Outside its delimited identifiers every statement has exactly the placeholders of its values, in
order.  A page selects from the rows that are counted, and its values are those of the count, its
length and the number of rows before it. -/
theorem placeholders_match_values {model : Model} (hmodel : ∀ r ∈ model.resources, HasOpenTypes r)
    {r : Resource} (hopen : HasOpenTypes r) (query : Query) (paging : Paging) (id : Json)
    (ids : List Json) (data : Fields) :
    (∀ first, firstOf model query = .ok first → first.Matches Selection.text) ∧
      (∀ page tally, pageOf model query paging = .ok (page, tally) → Paired paging page tally) ∧
      (insert r data).Matches Change.text ∧ (update r id data).Matches Change.text ∧
      (delete r id).Matches Change.text ∧ (deleteIn r ids).Matches Change.text :=
  ⟨fun _ => firstOf_matches hmodel, fun _ _ => pageOf_paired hmodel, insert_matches hopen data,
    update_matches hopen id data, delete_matches hopen id, deleteIn_matches hopen ids⟩

/-- Posts found by a list, by their comments and by the number of them, shown with their comments;
and writes of a post, with dollar signs in values and a field that is no column. -/
theorem placeholders_match_values_journal :
    let query : Query := {
      resource := "posts"
      clause := [
        (.and, .condition "id" (.among [.int 1, .int 2])),
        (.or, .related "comments" true
          [(.and, .contains "body" "$9"), (.or, .condition "body" (.differs .null)),
            (.and, .condition "id" (.equals (.int 7)))]),
        (.and, .count "comments" .atLeast 1)]
      eager := ["comments"]
      order := [("id", .descending)] }
    let posts := Config.resolveResource Config.postsDef
    let data : Fields :=
      [("title", .str "$8"), ("id", .int 3), ("other", .null), ("slug", .str "a")]
    (∃ first, firstOf Config.journal query = .ok first ∧ first.values.length = 5 ∧
      first.Matches Selection.text) ∧
      (∃ page tally, pageOf Config.journal query ⟨2, 10⟩ = .ok (page, tally) ∧
        Paired ⟨2, 10⟩ page tally) ∧
      (insert posts data).Matches Change.text ∧ (update posts (.int 3) data).Matches Change.text ∧
      (delete posts (.int 3)).Matches Change.text ∧
      (deleteIn posts [.int 3, .int 4]).Matches Change.text := by
  intro query posts data
  have hmodel : ∀ r ∈ Config.journal.resources, HasOpenTypes r := by decide
  have hopen : HasOpenTypes posts := by decide
  obtain ⟨hfirst, hpage, hwrites⟩ := placeholders_match_values hmodel hopen query ⟨2, 10⟩ (.int 3)
    [.int 3, .int 4] data
  exact ⟨⟨_, rfl, rfl, hfirst _ rfl⟩, ⟨_, _, rfl, hpage _ _ rfl⟩, hwrites⟩

end Records.Sql
