import Records.Proofs.Sql.Numbering
import Records.Proofs.Sql.Statement

/-!
# Delimited identifiers

An identifier between double quotes is read to the first quote that is not doubled.  Every name is
read back from its delimited form, whatever characters it has and whatever follows it, as long as
that is not another quote (`delimited?_eq_some_iff`).  So the names in a statement are tokens of
their own: the select list has those of the columns that a query asks for and those that the model
gives to the relations shown with each row, the order has those of its columns, and a table has its
schema and its own (`names_are_identifiers`).
-/

set_option autoImplicit false

namespace Records.Sql

/-! ## Reading one identifier -/

/-- What stands before the first quote that is not doubled, and what follows that quote. -/
def undelimited? : List Char → Option (List Char × List Char)
  | [] => none
  | '"' :: '"' :: rest => (undelimited? rest).map fun (name, left) => ('"' :: name, left)
  | '"' :: rest => some ([], rest)
  | c :: rest => (undelimited? rest).map fun (name, left) => (c :: name, left)

/-- The delimited identifier at the beginning of a text, and what follows it. -/
def delimited? : List Char → Option (List Char × List Char)
  | '"' :: rest => undelimited? rest
  | _ => none

/-- A name with every quote doubled. -/
def doubled (name : List Char) : List Char :=
  name.flatMap fun c => if c = '"' then ['"', '"'] else [c]

/-- What is read up to a closing quote is a name with its quotes doubled. -/
theorem eq_of_undelimited? {text name rest : List Char}
    (h : undelimited? text = some (name, rest)) :
    text = doubled name ++ '"' :: rest ∧ rest.head? ≠ some '"' := by
  fun_induction undelimited? text generalizing name with
  | case1 => cases h
  | case2 text ih =>
    obtain ⟨⟨others, left⟩, hothers, h⟩ := Option.map_eq_some_iff.mp h
    cases h
    obtain ⟨rfl, hrest⟩ := ih hothers
    exact ⟨rfl, hrest⟩
  | case3 text hsingle =>
    cases h
    refine ⟨rfl, ?_⟩
    intro hquote
    obtain ⟨left, rfl⟩ := List.head?_eq_some_iff.mp hquote
    exact hsingle left rfl
  | case4 c text hdouble hquote ih =>
    obtain ⟨⟨others, left⟩, hothers, h⟩ := Option.map_eq_some_iff.mp h
    cases h
    obtain ⟨rfl, hrest⟩ := ih hothers
    have hc : c ≠ '"' := fun hc => hquote hc
    exact ⟨by simp [doubled, hc], hrest⟩

/-- A name with its quotes doubled is read back up to its closing quote. -/
theorem undelimited?_doubled (name : List Char) {rest : List Char} (h : rest.head? ≠ some '"') :
    undelimited? (doubled name ++ '"' :: rest) = some (name, rest) := by
  induction name with
  | nil =>
    -- the last quote ends the name, for what follows does not double it
    cases rest with
    | nil => rfl
    | cons c rest =>
      have hc : c ≠ '"' := by simpa using h
      show undelimited? ('"' :: c :: rest) = _
      rw [undelimited?]
      intro left hleft
      exact hc (List.cons.inj hleft).1
  | cons c name ih =>
    by_cases hc : c = '"'
    · subst hc
      show undelimited? ('"' :: '"' :: (doubled name ++ '"' :: rest)) = _
      rw [undelimited?, ih]
      rfl
    · have hdoubled : doubled (c :: name) = c :: doubled name := by simp [doubled, hc]
      rw [hdoubled, List.cons_append, undelimited?, ih]
      · rfl
      · exact fun _ hquote _ => hc hquote
      · exact hc

/-- Reading an identifier accepts exactly what delimiting a name gives, and stops where it ends. -/
theorem delimited?_eq_some_iff {text rest : List Char} {name : String} :
    delimited? text = some (name.toList, rest) ↔
      text = quoted name ++ rest ∧ rest.head? ≠ some '"' := by
  have hquoted : quoted name ++ rest = '"' :: (doubled name.toList ++ '"' :: rest) := by
    show '"' :: ((doubled name.toList ++ ['"']) ++ rest) = _
    simp
  rw [hquoted]
  constructor
  · intro h
    rw [delimited?.eq_def] at h
    split at h
    · obtain ⟨rfl, hrest⟩ := eq_of_undelimited? h
      exact ⟨rfl, hrest⟩
    · cases h
  · rintro ⟨rfl, hrest⟩
    exact undelimited?_doubled name.toList hrest

/-- A statement is read on after an identifier where reading that identifier stops. -/
theorem tokens_of_delimited? {text rest : List Char} {name : String}
    (h : delimited? text = some (name.toList, rest)) :
    tokens text = .name name.toList :: tokens rest := by
  obtain ⟨rfl, hrest⟩ := delimited?_eq_some_iff.mp h
  rw [tokens, scan_append, scan_quoted]
  cases rest with
  | nil => rfl
  | cons c rest =>
    have hc : ¬c = Quote.double.char := fun hc => hrest (congrArg some hc)
    simp only [scan, Scan.step, if_neg hc]
    rfl

/-- A delimited name is a token of its own before anything but a quote. -/
theorem tokens_quoted_append (name : String) {rest : List Char} (h : rest.head? ≠ some '"') :
    tokens (quoted name ++ rest) = .name name.toList :: tokens rest :=
  tokens_of_delimited? (delimited?_eq_some_iff.mpr ⟨rfl, h⟩)

/-- A table has its own tokens before anything but a quote. -/
theorem tokens_table_append (t : TableRef) {rest : List Char} (h : rest.head? ≠ some '"') :
    tokens (t.text ++ rest) = t.tokens ++ tokens rest := by
  have htext : t.text ++ rest = quoted t.schema ++ (['.'] ++ (quoted t.table ++ rest)) := by
    simp [TableRef.text]
  rw [htext, tokens_quoted_append t.schema (by simp), closes_dot.tokens_append,
    tokens_quoted_append t.table h]
  rfl

/-! ## The names in a text -/

/-- The delimited identifiers among some tokens. -/
def identifiers (ts : List Token) : List (List Char) :=
  ts.filterMap fun
    | .name text => some text
    | _ => none

/-- Tokens whose identifiers are certain names. -/
def Naming (names : List String) (ts : List Token) : Prop :=
  identifiers ts = names.map String.toList

/-- A text whose identifiers are certain names. -/
def Names (text : List Char) (names : List String) : Prop := ReadsAs (Naming names) text

/-- The names among two runs of tokens are those of the one and then of the other. -/
theorem Naming.append {ns ms : List String} {ts us : List Token} (hts : Naming ns ts)
    (hus : Naming ms us) : Naming (ns ++ ms) (ts ++ us) := by
  rw [Naming, identifiers, List.filterMap_append, List.map_append]
  exact congrArg₂ (· ++ ·) hts hus

/-- The identifiers among the tokens of a text are its names. -/
theorem identifiers_tokens {text : List Char} {names : List String} (h : Names text names) :
    identifiers (tokens text) = names.map String.toList :=
  h.tokens.2

/-- A column is named by its identifier. -/
theorem names_column (c : ColumnRef) : Names c.text [c.column] := ⟨_, reads_column c, rfl⟩

/-- The names of a list are those of its parts in their order. -/
theorem names_listed {parts : List (List Char)} {names : List (List String)}
    (h : List.Forall₂ Names parts names) : Names (listed parts) names.flatten := by
  induction h with
  | nil => exact ⟨[], Reads.nil, rfl⟩
  | cons hfirst hothers ih =>
    cases hothers with
    | nil =>
      rw [List.flatten_singleton]
      exact hfirst
    | cons =>
      have hcomma : Closes [',', ' '] [.sign ','] := rfl
      have hcommaNames : Naming [] [.sign ','] := rfl
      obtain ⟨ts, hts, htsNames⟩ := hfirst
      obtain ⟨us, hus, husNames⟩ := ih
      exact ⟨_, hts.append rfl (hcomma.append hus), htsNames.append (hcommaNames.append husNames)⟩

/-- Texts made alike have their names one by one. -/
theorem names_map {α : Type} {text : α → List Char} {names : α → List String}
    (h : ∀ a, Names (text a) (names a)) (l : List α) :
    List.Forall₂ Names (l.map text) (l.map names) := by
  rw [List.forall₂_map_left_iff, List.forall₂_map_right_iff]
  exact List.forall₂_same.mpr fun a _ => h a

/-- The names in the text of the related rows. -/
def Scope.names (s : Scope) : List String :=
  [s.table.schema, s.table.table, s.foreignKey, s.localKey] ++ s.softDeleteColumn.toList

/-- A scope names the key, the key it refers to and the trash mark, if there is one. -/
theorem names_scope (s : Scope) :
    Names s.text (s.foreignKey :: s.localKey :: s.softDeleteColumn.toList) := by
  have hsign : Closes " = ".toList [.sign '='] := rfl
  have hkeys := ((reads_column ⟨s.child, s.foreignKey⟩).append_closes rfl hsign).append
    (reads_column ⟨s.parent, s.localKey⟩)
  rw [s.text_eq, Scope.mark]
  cases s.softDeleteColumn with
  | none => exact ⟨_, hkeys.append rfl Reads.nil, rfl⟩
  | some column =>
    have hnull : Reads " IS NULL".toList [.word "IS".toList, .word "NULL".toList] :=
      ⟨_, _, _, rfl, rfl, rfl⟩
    have hmark := closes_and.append ((reads_column ⟨s.child, column⟩).append rfl hnull)
    exact ⟨_, hkeys.append rfl hmark, rfl⟩

/-- The names of a scope's source. -/
theorem names_source (s : Scope) : Names s.source s.names := by
  obtain ⟨ts, hts, hnames⟩ := names_scope s
  have hrows : Naming [s.table.schema, s.table.table] s.rowsTokens := rfl
  have hwhere : Naming [] [.word "WHERE".toList] := rfl
  exact ⟨_, reads_rows s hts, hrows.append (hwhere.append hnames)⟩

/-- The names in the text of a relation that is shown with each row. -/
def Embedded.names (e : Embedded) : List String := e.scope.names ++ [e.name]

/-- The names of a select that is shown with each row. -/
theorem names_embedded (e : Embedded) : Names e.text e.names := by
  obtain ⟨source, hsource, hnames⟩ := names_source e.scope
  refine ⟨_, reads_embedded e hsource, ?_⟩
  have hopening : Naming [] (.sign '(' :: e.opening) := by
    rw [Embedded.opening]
    split <;> rfl
  have hclosing : Naming [] (e.closing ++ [.sign ')', .word "AS".toList]) := by
    rw [Embedded.closing]
    split <;> rfl
  have hname : Naming [e.name] [.name e.name.toList] := rfl
  have hselect := ((hopening.append hnames).append hclosing).append hname
  simpa [Embedded.names, Embedded.tokens] using hselect

/-- A select list names the columns that it shows; without any it shows all and names none. -/
theorem names_columns (columns : List String) :
    ∃ names, List.Forall₂ Names
      (if columns.isEmpty then ["main.*".toList]
        else columns.map fun column => ColumnRef.text ⟨.main, column⟩) names ∧
      names.flatten = columns := by
  cases columns with
  | nil =>
    have hall : Names "main.*".toList [] :=
      ⟨[.word "main".toList, .sign '.', .sign '*'], ⟨_, _, _, rfl, rfl, rfl⟩, rfl⟩
    exact ⟨[[]], .cons hall .nil, rfl⟩
  | cons column others =>
    refine ⟨_, names_map (fun column => names_column ⟨.main, column⟩) (column :: others), ?_⟩
    rw [← List.flatMap_def, List.flatMap_singleton']

/-- A select list names its columns and then what its selects name. -/
theorem names_shown (s : Selection) :
    Names s.shown (s.columns ++ s.embedded.flatMap Embedded.names) := by
  obtain ⟨names, hcolumns, hnames⟩ := names_columns s.columns
  have hlisted := names_listed (List.rel_append hcolumns (names_map names_embedded s.embedded))
  rw [List.flatten_append, hnames, ← List.flatMap_def] at hlisted
  exact hlisted

/-- A key of an order is named by its identifier. -/
theorem names_key (key : String × SortDirection) :
    Names (ColumnRef.text ⟨.main, key.1⟩ ++ ' ' :: directionText key.2) [key.1] := by
  obtain ⟨column, direction⟩ := key
  have hdirection : Names (directionText direction) [] := by
    cases direction with
    | ascending => exact ⟨[.word "ASC".toList], ⟨_, _, _, rfl, rfl, rfl⟩, rfl⟩
    | descending => exact ⟨[.word "DESC".toList], ⟨_, _, _, rfl, rfl, rfl⟩, rfl⟩
  obtain ⟨ts, hts, hnames⟩ := hdirection
  have hcolumn : Naming [column] (ColumnRef.tokens ⟨.main, column⟩) := rfl
  exact ⟨_, (reads_column _).append rfl hts.after_blank, hcolumn.append hnames⟩

/-- An order names its keys in turn. -/
theorem names_order (order : List (String × SortDirection)) :
    Names (orderText order) (order.map Prod.fst) := by
  rw [orderText]
  cases order with
  | nil => exact ⟨[], Reads.nil, rfl⟩
  | cons key others =>
    have horder : Closes " ORDER BY ".toList [.word "ORDER".toList, .word "BY".toList] := rfl
    have hwords : Naming [] [.word "ORDER".toList, .word "BY".toList] := rfl
    have hkeys := names_listed (names_map names_key (key :: others))
    rw [← List.flatMap_def, ← List.map_eq_flatMap] at hkeys
    obtain ⟨ts, hts, hnames⟩ := hkeys
    exact ⟨_, horder.append hts, hwords.append hnames⟩

/-! ## Statements -/

/-- The names that a relation shown with each row brings into a select list: those of its table, of
the columns that tie its rows, and its own. -/
def eagerNames (model : Model) (r : Resource) (name : String) : List String :=
  match model.related r name with
  | .ok (relation, target) =>
    [target.schema, target.table, relation.foreignKey, relation.localKey] ++
      target.softDeleteColumn.toList ++ [name]
  | .error _ => []

/-- The selects that are built name what the model gives for the relations asked for. -/
theorem names_of_embeddedOf {model : Model} {r : Resource} {names : List String} {s s' : Bindings}
    {embedded : List Embedded} (h : embeddedOf model r names s = .ok (embedded, s')) :
    embedded.flatMap Embedded.names = names.flatMap (eagerNames model r) := by
  induction names generalizing s embedded with
  | nil =>
    cases h
    rfl
  | cons name rest ih =>
    obtain ⟨relation, target, others, hrelated, hothers, rfl⟩ := embedded_built h
    rw [List.flatMap_cons, List.flatMap_cons, ih hothers, eagerNames, hrelated]
    rfl

/-- Two texts that begin between tokens do so one after the other. -/
theorem separated_both {a b : List Char} (ha : Separated a) (hb : Separated b) :
    Separated (a ++ b) := by
  cases a with
  | nil => exact hb
  | cons c rest => exact ha

/-- A table under its main alias is read as its two names, in front of whatever may follow it. -/
theorem tokens_mainTable_append (t : TableRef) {rest : List Char} (h : Separated rest) :
    tokens (mainTable t ++ rest) = tokens t.text ++ .word "main".toList :: tokens rest := by
  have hblank : Closes [' '] [] := rfl
  have htext : mainTable t ++ rest = t.text ++ ([' '] ++ (Alias.main.text ++ rest)) := by
    simp [mainTable]
  rw [htext, (reads_table t).tokens_append rfl, tokens_of_reads (reads_table t),
    hblank.tokens_append, (reads_alias .main).tokens_append h]
  rfl

/-- What a statement has after its table. -/
def Selection.tail (s : Selection) : List Char :=
  s.restriction.text ++ (orderText s.order ++ s.extent.text)

/-- The tokens of a selection: its select list, its table under `main`, and the others. -/
theorem Selection.tokens_text (s : Selection) :
    tokens s.text = .word "SELECT".toList :: (tokens s.shown ++ .word "FROM".toList ::
      (tokens s.table.text ++ .word "main".toList :: tokens s.tail)) := by
  have hselect : Closes "SELECT ".toList [.word "SELECT".toList] := rfl
  have hfrom : Closes " FROM ".toList [.word "FROM".toList] := rfl
  have htail : Separated s.tail := separated_both (separated_restriction s.restriction)
    (separated_both (separated_order s.order) (separated_extent s.extent))
  have hnext : Separated (" FROM ".toList ++ (mainTable s.table ++ s.tail)) := rfl
  -- over variables, for simp would take the fixed texts apart into their characters
  have hassoc : ∀ a b c d e f g : List Char,
      a ++ b ++ c ++ d ++ e ++ f ++ g = a ++ (b ++ (c ++ (d ++ (e ++ (f ++ g))))) := by simp
  have htext : s.text =
      "SELECT ".toList ++ (s.shown ++ (" FROM ".toList ++ (mainTable s.table ++ s.tail))) :=
    hassoc _ _ _ _ _ _ _
  rw [htext, hselect.tokens_append, (names_shown s).tokens.1.tokens_append hnext,
    hfrom.tokens_append, tokens_mainTable_append s.table htail]
  rfl

/-- The tokens of a count: its table under `main`, and its restriction. -/
theorem Tally.tokens_text (t : Tally) :
    tokens t.text = [.word "SELECT".toList, .word "COUNT".toList, .sign '(', .sign '*', .sign ')',
      .word "FROM".toList] ++
        (tokens t.table.text ++ .word "main".toList :: tokens t.restriction.text) := by
  have hcount : Closes "SELECT COUNT(*) FROM ".toList [.word "SELECT".toList, .word "COUNT".toList,
    .sign '(', .sign '*', .sign ')', .word "FROM".toList] := rfl
  have htext : t.text =
      "SELECT COUNT(*) FROM ".toList ++ (mainTable t.table ++ t.restriction.text) :=
    List.append_assoc _ _ _
  rw [htext, hcount.tokens_append,
    tokens_mainTable_append t.table (separated_restriction t.restriction)]

/-- A selection whose names are identifiers of their own: those that a query asks for and those that
the model gives, where they stand in the statement. -/
structure Selection.Identifies (model : Model) (r : Resource) (query : Query) (s : Selection) :
    Prop where
  shown : identifiers (tokens s.shown) =
    (query.columns ++ query.eager.flatMap (eagerNames model r)).map String.toList
  table : tokens s.table.text = [.name r.schema.toList, .sign '.', .name r.table.toList]
  order : identifiers (tokens (orderText s.order)) = query.order.map fun key => key.1.toList
  /-- The select list and the table are read so in front of the restriction. -/
  front : tokens s.text = .word "SELECT".toList :: (tokens s.shown ++ .word "FROM".toList ::
    (tokens s.table.text ++ .word "main".toList :: tokens s.tail))
  /-- The order is read so in front of the extent. -/
  back : tokens (orderText s.order ++ s.extent.text) =
    tokens (orderText s.order) ++ tokens s.extent.text
  /-- No quote is open after the restriction, unless the name of a type opens one. -/
  middle : (∀ r ∈ model.resources, HasOpenTypes r) → tokens s.tail =
    tokens s.restriction.text ++ tokens (orderText s.order ++ s.extent.text)

/-- A count whose table is read as its two names where it stands in the statement. -/
structure Tally.Identifies (r : Resource) (t : Tally) : Prop where
  table : tokens t.table.text = [.name r.schema.toList, .sign '.', .name r.table.toList]
  front : tokens t.text = [.word "SELECT".toList, .word "COUNT".toList, .sign '(', .sign '*',
    .sign ')', .word "FROM".toList] ++
      (tokens t.table.text ++ .word "main".toList :: tokens t.restriction.text)

/-- A selection that was built names what its query asks for where it should stand. -/
theorem Parts.selection_identifies {model : Model} {query : Query} (parts : Parts model query)
    (extent : Extent) : (parts.selection extent).Identifies model parts.resource query := by
  have hshown := identifiers_tokens (names_shown (parts.selection extent))
  have horder := identifiers_tokens (names_order query.order)
  have hback := separated_extent extent
  refine ⟨?_, tokens_of_reads (reads_table _), ?_, Selection.tokens_text _, ?_, ?_⟩
  · rw [hshown, ← names_of_embeddedOf parts.embeds]
    rfl
  · rw [List.map_map] at horder
    exact horder
  · exact (names_order query.order).tokens.1.tokens_append hback
  · intro hopen
    have hafter : Separated (orderText query.order ++ extent.text) :=
      separated_both (separated_order query.order) hback
    exact (parts.shows_restriction hopen).tokens.1.tokens_append hafter

/-- Every name is read back from its delimited form, in front of anything but another quote, and
every table as the two names that it has.  In the first, page and count statements of a query the
order, the select list and the tables have exactly the names that the query asks for and the model
gives, each as one identifier. -/
theorem names_are_identifiers (model : Model) (query : Query) :
    (∀ (name : String) (rest : List Char), rest.head? ≠ some '"' →
      delimited? (quoted name ++ rest) = some (name.toList, rest) ∧
        tokens (quoted name ++ rest) = .name name.toList :: tokens rest) ∧
    (∀ (table : TableRef) (rest : List Char), rest.head? ≠ some '"' →
      tokens (table.text ++ rest) =
        .name table.schema.toList :: .sign '.' :: .name table.table.toList :: tokens rest) ∧
    (∀ (scope : Scope) (rest : List Char), Separated rest →
      tokens (scope.source ++ rest) = tokens scope.source ++ tokens rest ∧
        identifiers (tokens scope.source) = scope.names.map String.toList) ∧
    (∀ first, firstOf model query = .ok first →
      ∃ r, model.requireResource query.resource = .ok r ∧
        first.statement.Identifies model r query) ∧
    ∀ paging page tally, pageOf model query paging = .ok (page, tally) →
      ∃ r, model.requireResource query.resource = .ok r ∧
        page.statement.Identifies model r query ∧ tally.statement.Identifies r := by
  refine ⟨?_, fun table rest => tokens_table_append table, ?_, ?_, ?_⟩
  · intro name rest hrest
    exact ⟨delimited?_eq_some_iff.mpr ⟨rfl, hrest⟩, tokens_quoted_append name hrest⟩
  · intro scope rest hrest
    -- a source ends with a token, so what follows it is kept apart
    obtain ⟨hreads, hnames⟩ := (names_source scope).tokens
    exact ⟨hreads.tokens_append hrest, hnames⟩
  · intro first h
    obtain ⟨parts, rfl⟩ := firstOf_built h
    exact ⟨parts.resource, parts.requires, parts.selection_identifies _⟩
  · intro paging page tally h
    obtain ⟨parts, rfl, rfl⟩ := pageOf_built h
    exact ⟨parts.resource, parts.requires, parts.selection_identifies _,
      tokens_of_reads (reads_table _), Tally.tokens_text _⟩

/-- Posts with names that hold quotes, blanks and comment signs, or nothing but a quote, shown with
their comments. -/
theorem names_are_identifiers_journal :
    let query : Query := {
      resource := "posts"
      columns := ["\"", "a\"\" FROM"]
      eager := ["comments"]
      order := [("id\" -- ", .descending), ("", .ascending)] }
    (delimited? (quoted "\"\"a\"" ++ ", b".toList) = some ("\"\"a\"".toList, ", b".toList)) ∧
      (∃ first, firstOf Config.journal query = .ok first ∧
        identifiers (tokens first.statement.shown) =
          ["\"", "a\"\" FROM", "public", "comments", "post_id", "id", "deleted_at",
            "comments"].map String.toList ∧
        ∃ r, Config.journal.requireResource query.resource = .ok r ∧
          first.statement.Identifies Config.journal r query) ∧
      ∃ page tally, pageOf Config.journal query ⟨2, 10⟩ = .ok (page, tally) ∧
        ∃ r, Config.journal.requireResource query.resource = .ok r ∧
          page.statement.Identifies Config.journal r query ∧ tally.statement.Identifies r := by
  intro query
  obtain ⟨hname, _, _, hfirst, hpage⟩ := names_are_identifiers Config.journal query
  refine ⟨(hname _ _ (by decide)).1, ⟨_, rfl, ?_, hfirst _ rfl⟩, _, _, rfl, hpage ⟨2, 10⟩ _ _ rfl⟩
  obtain ⟨r, hr, hidentifies⟩ := hfirst _ rfl
  cases hr
  exact hidentifies.shown

end Records.Sql
