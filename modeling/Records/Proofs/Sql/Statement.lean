import Records.Proofs.Config.Sound
import Records.Proofs.Sql.Meaning
import Records.Proofs.Sql.Shape

/-!
# Reading a statement back

The condition of a statement, read back from its text by the grammar of SQL, has the truth value of
the query (`condition_reads_as_query`).  What stands before the condition has no `WHERE` of its own
outside parentheses, and what stands after it begins with a keyword that ends conditions.
-/

set_option autoImplicit false

namespace Records.Sql

variable {ρ : Type} {I : Interpretation ρ}

/-- What a statement may have between its table and its order. -/
def RestrictionText (I : Interpretation ρ) (text : List Char) (value : ρ → Bool) : Prop :=
  (text = [] ∧ value = fun _ => true) ∨
    ∃ condition, text = " WHERE ".toList ++ condition ∧ ConjunctionText I condition value

/-- The parts of a restriction that come from its conditions. -/
theorem conditionParts_read {conditions : List (Joiner × Condition)}
    {values : List (Joiner × (ρ → Bool))} (h : List.Forall₂ (EntryText I) conditions values) :
    let parts := if conditions.isEmpty then []
      else if isDisjunctive conditions then ['(' :: (chainText conditions ++ [')'])]
      else [chainText conditions]
    (parts = [] ∧ runsHold values = fun _ => true) ∨
      ∃ part, parts = [part] ∧ ConjunctionText I part (runsHold values) := by
  by_cases hempty : conditions = []
  · subst hempty
    cases h
    exact .inl ⟨rfl, rfl⟩
  right
  simp only [List.isEmpty_iff, if_neg hempty]
  cases hdisjunctive : isDisjunctive conditions with
  | true => exact ⟨_, rfl, (chainText_reads h hempty).parenthesized.conjunction⟩
  | false => exact ⟨_, rfl, chainText_reads_conjunction h hempty hdisjunctive⟩

/-- A restriction holds where the test on the trash mark and the clause do. -/
theorem restriction_reads (mark : Option (ColumnRef × Bool))
    {conditions : List (Joiner × Condition)} {values : List (Joiner × (ρ → Bool))}
    (h : List.Forall₂ (EntryText I) conditions values) :
    RestrictionText I (Restriction.text ⟨mark, conditions⟩)
      fun row => markHolds I mark row && runsHold values row := by
  unfold Restriction.text Restriction.parts
  cases mark with
  | none =>
    rcases conditionParts_read h with ⟨hparts, hvalue⟩ | ⟨part, hparts, hreads⟩
    · rw [hparts, hvalue]
      exact .inl ⟨rfl, rfl⟩
    · rw [hparts]
      exact .inr ⟨part, rfl, hreads⟩
  | some mark =>
    have hmark := FactorText.of_comparison (I := I) (mark_comparison mark)
    rcases conditionParts_read h with ⟨hparts, hvalue⟩ | ⟨part, hparts, hreads⟩
    · rw [hparts, hvalue]
      refine .inr ⟨trashText mark, rfl, ?_⟩
      simpa [markHolds] using hmark.conjunction
    · rw [hparts]
      exact .inr ⟨_, rfl, hmark.and hreads⟩

/-- Tokens in which the condition of a select does not begin. -/
abbrev Unrestricted : List Token → Prop := Unstopped Token.isRestriction

/-- The tokens of a select that is shown with each row, before the rows that it goes through. -/
def Embedded.opening (e : Embedded) : List Token :=
  if e.many then
    [.word "SELECT".toList, .word "COALESCE".toList, .sign '(', .word "json_agg".toList, .sign '(',
      .word "row_to_json".toList, .sign '(', .word e.scope.child.text, .sign ')', .sign ')',
      .sign ',', .literal "[]".toList, .sign ':', .sign ':', .word "json".toList, .sign ')']
  else [.word "SELECT".toList, .word "row_to_json".toList, .sign '(', .word e.scope.child.text,
    .sign ')']

/-- The tokens of a select that is shown with each row, after the rows that it goes through. -/
def Embedded.closing (e : Embedded) : List Token :=
  if e.many then [] else [.word "LIMIT".toList, .word "1".toList]

/-- The tokens of a select that is shown with each row, given those of the rows. -/
def Embedded.tokens (e : Embedded) (source : List Token) : List Token :=
  .sign '(' :: (e.opening ++ source ++ (e.closing ++ [.sign ')'])) ++ [.word "AS".toList] ++
    [.name e.name.toList]

/-- A select that is shown with each row has the tokens of its rows between its own. -/
theorem reads_embedded (e : Embedded) {source : List Token}
    (hsource : Reads e.scope.source source) :
    Reads e.text (e.tokens source) := by
  obtain ⟨name, many, scope⟩ := e
  have hrow : Closes "row_to_json(".toList [.word "row_to_json".toList, .sign '('] := rfl
  have hrows := (hrow.append (reads_alias scope.child)).append_closes rfl closes_parenthesis
  have has : Closes " AS ".toList [.word "AS".toList] := rfl
  cases many with
  | true =>
    have hselect : Closes "(SELECT COALESCE(json_agg(".toList [.sign '(', .word "SELECT".toList,
      .word "COALESCE".toList, .sign '(', .word "json_agg".toList, .sign '('] := rfl
    have hlist : Closes "), '[]'::json)".toList [.sign ')', .sign ',', .literal "[]".toList,
      .sign ':', .sign ':', .word "json".toList, .sign ')'] := rfl
    have hrelated := ((hselect.append_closes hrows).append_closes hlist).append hsource
    exact ((hrelated.append_closes rfl closes_parenthesis).append_closes has).append
      (reads_quoted name)
  | false =>
    have hselect : Closes "(SELECT ".toList [.sign '(', .word "SELECT".toList] := rfl
    have hlimit : Closes " LIMIT 1)".toList
      [.word "LIMIT".toList, .word "1".toList, .sign ')'] := rfl
    have hrelated := (hselect.append_closes hrows).append hsource
    exact ((hrelated.append_closes rfl hlimit).append_closes has).append (reads_quoted name)

/-- No condition of the statement begins in a select that is shown with each row. -/
theorem embedded_unrestricted (e : Embedded) : ReadsAs Unrestricted e.text := by
  obtain ⟨source, hsource, hbalanced⟩ := source_balanced e.scope
  refine ⟨_, reads_embedded e hsource, ?_⟩
  have hopening : Balanced e.opening := by
    rw [Embedded.opening]
    split <;> rfl
  have hclosing : Balanced e.closing := by
    rw [Embedded.closing]
    split <;> rfl
  have hselect : Unrestricted _ :=
    Balanced.parenthesized ((hopening.append hbalanced).append hclosing) rfl
  have hname : Unrestricted [.word "AS".toList, .name e.name.toList] := rfl
  simpa [Embedded.tokens] using hselect.append hname

/-- No condition begins in a column. -/
theorem column_unrestricted (c : ColumnRef) : ReadsAs Unrestricted c.text :=
  ⟨_, reads_column c, unrestricted_of_isPlain fun _ ht => isPlain_of_mem_column ht⟩

/-- No condition of the statement begins in its select list. -/
theorem shown_unrestricted (s : Selection) : ReadsAs Unrestricted s.shown := by
  unfold Selection.shown
  apply listed_unstopped rfl
  intro part hpart
  rcases List.mem_append.mp hpart with hcolumn | hembedded
  · split at hcolumn
    · rw [List.mem_singleton.mp hcolumn]
      exact ⟨[.word "main".toList, .sign '.', .sign '*'], ⟨_, _, _, rfl, rfl, rfl⟩, rfl⟩
    · obtain ⟨column, _, rfl⟩ := List.mem_map.mp hcolumn
      exact column_unrestricted ⟨.main, column⟩
  · obtain ⟨e, _, rfl⟩ := List.mem_map.mp hembedded
    exact embedded_unrestricted e

/-- No condition begins in the main table. -/
theorem mainTable_unrestricted (t : TableRef) : ReadsAs Unrestricted (mainTable t) := by
  have htable : Unrestricted t.tokens :=
    unrestricted_of_isPlain fun _ ht => isPlain_of_mem_table ht
  have hmain : Unrestricted [.word Alias.main.text] := rfl
  exact ⟨_, (reads_table t).append rfl (reads_alias .main).after_blank, htable.append hmain⟩

/-- Tokens before which a condition is over, and in which none begins. -/
structure FollowsCondition (ts : List Token) : Prop where
  ends : ts.head?.all Token.endsDisjunction
  unrestricted : Unrestricted ts

/-- A text after which the condition of a statement is over: nothing, an order or an extent. -/
def TailText (text : List Char) : Prop := Separated text ∧ ReadsAs FollowsCondition text

/-- No condition begins in a placeholder. -/
theorem bare_unrestricted (number : Nat) : Unrestricted [.word (bare number)] := by
  apply unrestricted_of_isPlain
  intro t ht
  rw [List.mem_singleton.mp ht]
  exact isPlain_of_keyword? (keyword?_bare number)

/-- A condition is over before an extent. -/
theorem extent_tailText (extent : Extent) : TailText extent.text := by
  cases extent with
  | window limit offset =>
    have hlimit : Closes " LIMIT ".toList [.word "LIMIT".toList] := rfl
    have hoffset : Closes " OFFSET ".toList [.word "OFFSET".toList] := rfl
    have hlimitToken : Unrestricted [.word "LIMIT".toList] := rfl
    have hoffsetToken : Unrestricted [.word "OFFSET".toList] := rfl
    have hlimits := (hlimit.append (reads_bare limit)).append_closes rfl hoffset
    have hlimitsTokens := (hlimitToken.append (bare_unrestricted limit)).append hoffsetToken
    exact ⟨rfl, _, hlimits.append (reads_bare offset), rfl,
      hlimitsTokens.append (bare_unrestricted offset)⟩
  | first =>
    exact ⟨rfl, [.word "LIMIT".toList, .word "1".toList], ⟨_, _, _, rfl, rfl, rfl⟩, rfl, rfl⟩

/-- No condition begins in a direction. -/
theorem direction_unrestricted (direction : SortDirection) :
    ReadsAs Unrestricted (directionText direction) := by
  cases direction with
  | ascending => exact ⟨[.word "ASC".toList], ⟨_, _, _, rfl, rfl, rfl⟩, rfl⟩
  | descending => exact ⟨[.word "DESC".toList], ⟨_, _, _, rfl, rfl, rfl⟩, rfl⟩

/-- No condition begins in the keys of an order. -/
theorem orderKeys_unrestricted (order : List (String × SortDirection)) :
    ReadsAs Unrestricted (listed
      (order.map fun key => ColumnRef.text ⟨.main, key.1⟩ ++ ' ' :: directionText key.2)) := by
  apply listed_unstopped rfl
  intro part hpart
  obtain ⟨⟨column, direction⟩, _, rfl⟩ := List.mem_map.mp hpart
  obtain ⟨cs, hcolumn, hcolumnTokens⟩ := column_unrestricted ⟨.main, column⟩
  obtain ⟨ds, hdirection, hdirectionTokens⟩ := direction_unrestricted direction
  exact ⟨_, hcolumn.append rfl hdirection.after_blank, hcolumnTokens.append hdirectionTokens⟩

/-- A condition is over before an order and an extent. -/
theorem order_tailText (order : List (String × SortDirection)) (extent : Extent) :
    TailText (orderText order ++ extent.text) := by
  have hextent := extent_tailText extent
  unfold orderText
  by_cases hempty : order = []
  · subst hempty
    exact hextent
  obtain ⟨hseparated, ts, hts, _, htsTokens⟩ := hextent
  obtain ⟨keys, hkeys, hkeysTokens⟩ := orderKeys_unrestricted order
  have horder : Closes " ORDER BY ".toList [.word "ORDER".toList, .word "BY".toList] := rfl
  have hwords : Unrestricted [.word "ORDER".toList, .word "BY".toList] := rfl
  rw [if_neg (by simpa using hempty)]
  exact ⟨rfl, _, (horder.append hkeys).append hseparated hts, rfl,
    (hwords.append hkeysTokens).append htsTokens⟩

/-- A statement whose condition is read with a truth value. -/
def ConditionReads (I : Interpretation ρ) (text : List Char) (value : ρ → Bool) : Prop :=
  ∃ e, conditionOf (tokens text) = some e ∧ e.value I = value

/-- The condition of a statement is its restriction, wherever the other parts begin and end none. -/
theorem conditionReads_of_parts {head restriction tail : List Char} {value : ρ → Bool}
    (hhead : ReadsAs Unrestricted head) (hrestriction : RestrictionText I restriction value)
    (htail : TailText tail) : ConditionReads I (head ++ restriction ++ tail) value := by
  obtain ⟨hs, hhead, hheadTokens⟩ := hhead
  obtain ⟨hseparated, ts, htail, hends, htailTokens⟩ := htail
  rcases hrestriction with ⟨rfl, rfl⟩ | ⟨condition, rfl, cs, hreads, hconjunction⟩
  · refine ⟨.always, ?_, rfl⟩
    have hcut : cut Token.isRestriction 0 (hs ++ ts) = (hs ++ ts, []) := by
      simpa [cut] using cut_append (hheadTokens.append htailTokens) []
    rw [List.append_nil, tokens_of_reads (hhead.append hseparated htail), conditionOf, hcut]
    rfl
  · have hwhere : Closes " WHERE ".toList [.word "WHERE".toList] := rfl
    have htext := (hhead.append rfl (hwhere.append hreads)).append hseparated htail
    obtain ⟨_, e, he, hreads⟩ := hconjunction.disjunction
    refine ⟨e, ?_, he⟩
    have hcut := cut_append hheadTokens (.word "WHERE".toList :: (cs ++ ts))
    have hstop : cut Token.isRestriction 0 (.word "WHERE".toList :: (cs ++ ts)) =
        ([], .word "WHERE".toList :: (cs ++ ts)) := cut_of_stops rfl
    have hexpect : expect .restriction (.word "WHERE".toList :: (cs ++ ts)) = some (cs ++ ts) := rfl
    -- the reader's fuel is measured by the tokens that are left, of which the condition is a part
    have hfuel : 3 * cs.length + 2 ≤ 3 * (cs ++ ts).length + 2 := by
      rw [List.length_append]
      omega
    have hdisjunction := hreads (3 * (cs ++ ts).length + 2) ts hends hfuel
    rw [hstop, List.append_nil] at hcut
    rw [tokens_of_reads htext]
    simp only [List.append_assoc, List.cons_append, List.nil_append, conditionOf, hcut, hexpect,
      hdisjunction, hends, if_true]

/-- A selection reads with the truth value of its restriction. -/
theorem selection_reads (s : Selection) {value : ρ → Bool}
    (h : RestrictionText I s.restriction.text value) : ConditionReads I s.text value := by
  obtain ⟨shown, hshown, hshownTokens⟩ := shown_unrestricted s
  obtain ⟨table, htable, htableTokens⟩ := mainTable_unrestricted s.table
  have hselect : Closes "SELECT ".toList [.word "SELECT".toList] := rfl
  have hfrom : Closes " FROM ".toList [.word "FROM".toList] := rfl
  have hselectToken : Unrestricted [.word "SELECT".toList] := rfl
  have hfromToken : Unrestricted [.word "FROM".toList] := rfl
  have hhead : ReadsAs Unrestricted
      ("SELECT ".toList ++ s.shown ++ " FROM ".toList ++ mainTable s.table) :=
    ⟨_, ((hselect.append hshown).append_closes rfl hfrom).append htable,
      ((hselectToken.append hshownTokens).append hfromToken).append htableTokens⟩
  have hreads := conditionReads_of_parts hhead h (order_tailText s.order s.extent)
  rw [← List.append_assoc] at hreads
  exact hreads

/-- A count reads with the truth value of its restriction. -/
theorem tally_reads (t : Tally) {value : ρ → Bool}
    (h : RestrictionText I t.restriction.text value) : ConditionReads I t.text value := by
  obtain ⟨table, htable, htableTokens⟩ := mainTable_unrestricted t.table
  have hselect : Closes "SELECT COUNT(*) FROM ".toList [.word "SELECT".toList, .word "COUNT".toList,
    .sign '(', .sign '*', .sign ')', .word "FROM".toList] := rfl
  have hselectTokens : Unrestricted [.word "SELECT".toList, .word "COUNT".toList, .sign '(',
    .sign '*', .sign ')', .word "FROM".toList] := rfl
  have hhead : ReadsAs Unrestricted ("SELECT COUNT(*) FROM ".toList ++ mainTable t.table) :=
    ⟨_, hselect.append htable, hselectTokens.append htableTokens⟩
  have hend : TailText [] := ⟨rfl, [], Reads.nil, rfl, rfl⟩
  have hreads := conditionReads_of_parts hhead h hend
  rwa [List.append_nil] at hreads

/-- The selects that are shown are built when their relations are declared. -/
theorem exists_embeddedOf_eq_ok (model : Model) (r : Resource) (names : List String)
    (h : ∀ name ∈ names, ∃ found, model.related r name = .ok found) (s : Bindings) :
    ∃ embedded s', embeddedOf model r names s = .ok (embedded, s') := by
  induction names generalizing s with
  | nil => exact ⟨[], s, rfl⟩
  | cons name rest ih =>
    obtain ⟨⟨relation, target⟩, hrelated⟩ := h name (by simp)
    obtain ⟨others, s', hothers⟩ := ih (fun other hother => h other (List.mem_cons_of_mem _ hother))
      { s with aliases := s.aliases + 1 }
    have hlift : liftFault (model.related r name) s = .ok ((relation, target), s) := by
      rw [hrelated]
      rfl
    have hfresh : freshAlias s =
        .ok (.nested (s.aliases + 1), { s with aliases := s.aliases + 1 }) := rfl
    refine ⟨⟨name, relation.isMany, scopeOf relation target .main (.nested (s.aliases + 1))⟩ ::
      others, s', ?_⟩
    rw [embeddedOf, bind_of_ok hlift]
    dsimp only
    rw [bind_of_ok hfresh, bind_of_ok hothers]
    rfl

/-- The condition of a query, with the truth value that its text is read with. -/
theorem exists_restrictionOf_eq_ok {model : Model} {r : Resource} {query : Query}
    (hr : r ∈ model.resources) (hplain : ∀ r ∈ model.resources, HasPlainTypes r)
    (hresolves : Clause.Resolves model r query.clause) (hfilled : Clause.Filled query.clause)
    (s : Bindings) :
    ∃ restriction value s', restrictionOf model r query s = .ok (restriction, s') ∧
      queryMeaning I model r query s = .ok (value, s') ∧
      RestrictionText I restriction.text value := by
  have hentries : ∀ entry ∈ query.clause, PredicateReads I model r .main entry.2 := by
    intro entry hentry
    exact predicate_reads hplain entry.2 (hplain r hr) .main (hresolves.of_mem hentry)
      (hfilled.of_mem hentry)
  obtain ⟨conditions, values, s', hconditions, hvalues, htexts, _⟩ :=
    exists_clauseConditions_eq_ok query.clause hentries s
  refine ⟨⟨markOf r query.trashed, conditions⟩, _, s', ?_, ?_, restriction_reads _ htexts⟩
  · rw [restrictionOf, bind_of_ok hconditions]
    rfl
  · rw [queryMeaning, bind_of_ok hvalues]
    rfl

section

variable {model : Model} {query : Query} {r : Resource} {restriction : Restriction}
  {counted shown : Bindings} {embedded : List Embedded}
  (hr : model.requireResource query.resource = .ok r)
  (hrestriction : restrictionOf model r query {} = .ok (restriction, counted))
  (hembedded : embeddedOf model r query.eager counted = .ok (embedded, shown))

include hr hrestriction hembedded

/-- The first statement is made of the parts that were built. -/
theorem firstOf_eq_ok :
    firstOf model query = .ok ⟨⟨tableOf r, query.columns, embedded, restriction, query.order,
      .first⟩, shown.values⟩ := by
  rw [firstOf, hr]
  show (restrictionOf model r query {} >>= _) = _
  rw [hrestriction]
  show (embeddedOf model r query.eager counted >>= _) = _
  rw [hembedded]
  rfl

/-- The page and count statements are made of the parts that were built, unless the page has a
fault. -/
theorem exists_pageOf_eq_ok {paging : Paging} (hpaging : pagingFault paging = .ok ()) :
    ∃ extent values, pageOf model query paging =
      .ok (⟨⟨tableOf r, query.columns, embedded, restriction, query.order, extent⟩, values⟩,
        ⟨⟨tableOf r, restriction⟩, counted.values⟩) := by
  obtain ⟨perPage, hperPage, hpaging⟩ := Outcome.bind_eq_ok.mp hpaging
  obtain ⟨skip, hskip, _⟩ := Outcome.bind_eq_ok.mp hpaging
  refine ⟨.window (shown.values.length + 1) ((shown.values ++ [BindValue.int perPage]).length + 1),
    shown.values ++ [BindValue.int perPage] ++ [BindValue.int skip], ?_⟩
  rw [pageOf, hr]
  show (restrictionOf model r query {} >>= _) = _
  rw [hrestriction]
  show (embeddedOf model r query.eager counted >>= _) = _
  rw [hembedded]
  show (int64OrFault .perPageTooLarge paging.perPage >>= _) = _
  rw [hperPage]
  show (int64OrFault .pageTooLarge paging.offset >>= _) = _
  rw [hskip]
  rfl

end

/-- For a query whose relations resolve and whose groups are filled, the first, page and count
statements are built, and the condition of each, read back by the grammar of SQL, has the truth
value of the query on every row: the test on the trash mark, and some run of the clause true
throughout.  Comparisons may be given any truth values, and selects of related rows any rows; over
one row that every select goes through, this is equivalence of propositional formulas. -/
theorem condition_reads_as_query (I : Interpretation ρ) {model : Model} {query : Query}
    {r : Resource} (hr : model.requireResource query.resource = .ok r)
    (hresolves : Clause.Resolves model r query.clause)
    (heager : ∀ name ∈ query.eager, ∃ found, model.related r name = .ok found)
    (hfilled : Clause.Filled query.clause)
    (hplain : ∀ other ∈ model.resources, HasPlainTypes other) :
    ∃ value last, queryMeaning I model r query {} = .ok (value, last) ∧
      (∃ first, firstOf model query = .ok first ∧
        ConditionReads I first.statement.text value) ∧
      ∀ paging, pagingFault paging = .ok () →
        ∃ page tally, pageOf model query paging = .ok (page, tally) ∧
          ConditionReads I page.statement.text value ∧
          ConditionReads I tally.statement.text value := by
  obtain ⟨restriction, value, counted, hrestriction, hvalue, htext⟩ :=
    exists_restrictionOf_eq_ok (I := I) (Model.mem_of_requireResource hr) hplain hresolves hfilled
      {}
  obtain ⟨embedded, shown, hembedded⟩ := exists_embeddedOf_eq_ok model r query.eager heager counted
  refine ⟨value, counted, hvalue, ?_, ?_⟩
  · exact ⟨_, firstOf_eq_ok hr hrestriction hembedded, selection_reads _ htext⟩
  · intro paging hpaging
    obtain ⟨extent, values, hpage⟩ := exists_pageOf_eq_ok hr hrestriction hembedded hpaging
    exact ⟨_, _, hpage, selection_reads _ htext, tally_reads _ htext⟩

/-- A query over posts in which a disjunction, a negated test on comments and a group meet. -/
theorem condition_reads_as_query_journal :
    let query : Query := {
      resource := "posts"
      clause := [
        (.and, .condition "title" (.equals (.str "Lean"))),
        (.or, .related "comments" true
          [(.and, .contains "body" "spam"), (.or, .condition "id" (.among [.int 1, .int 2]))]),
        (.and, .group [(.and, .count "comments" .atLeast 1), (.or, .condition "slug" (.differs .null))])]
      eager := ["comments"]
      order := [("id", .descending)] }
    let I : Interpretation Unit :=
      ⟨fun _ ts => !ts.contains (.name "body".toList), fun _ _ => [()]⟩
    ∃ value last,
      queryMeaning I Config.journal (Config.resolveResource Config.postsDef) query {} =
        .ok (value, last) ∧
      (∃ first, firstOf Config.journal query = .ok first ∧
        ConditionReads I first.statement.text value) ∧
      ∃ page tally, pageOf Config.journal query ⟨2, 10⟩ = .ok (page, tally) ∧
        ConditionReads I page.statement.text value ∧
        ConditionReads I tally.statement.text value := by
  intro query I
  have hr : Config.journal.requireResource query.resource =
    .ok (Config.resolveResource Config.postsDef) := rfl
  have hresolves : Clause.Resolves Config.journal (Config.resolveResource Config.postsDef)
      query.clause :=
    ⟨trivial, ⟨_, _, rfl, trivial, trivial, trivial⟩, ⟨⟨_, _, rfl⟩, trivial, trivial⟩, trivial⟩
  have heager : ∀ name ∈ query.eager, ∃ found,
      Config.journal.related (Config.resolveResource Config.postsDef) name = .ok found := by
    intro name hname
    rw [List.mem_singleton.mp hname]
    exact ⟨_, rfl⟩
  have hfilled : Clause.Filled query.clause :=
    ⟨trivial, ⟨trivial, trivial, trivial⟩, ⟨List.cons_ne_nil _ _, trivial, trivial, trivial⟩, trivial⟩
  have hplain : ∀ other ∈ Config.journal.resources, HasPlainTypes other := by decide
  obtain ⟨value, last, hvalue, hfirst, hpages⟩ :=
    condition_reads_as_query I hr hresolves heager hfilled hplain
  exact ⟨value, last, hvalue, hfirst, hpages ⟨2, 10⟩ rfl⟩

end Records.Sql
