import Records.Proofs.Sql.Steps

/-!
# Placeholders and bound values

Every statement has, outside its delimited identifiers, the placeholders `$1`, `$2` and so on, each
once and in this order, as many as it has bound values (`placeholders_match_values`).  The names of
types may hold neither dollar signs nor quotes; identifiers may hold any character.

`Shows text numbers` says which placeholders a text has, and composes along the text; `Spans` says
that a text has those of the values that a step binds, and composes along the steps.
-/

set_option autoImplicit false

namespace Records.Sql

/-- Whether a token other than a delimited identifier has a dollar sign. -/
def Token.hasDollar : Token → Bool
  | .word text => text.contains '$'
  | .literal text => text.contains '$'
  | .name _ => false
  | .sign c => c = '$'

/-- The tokens of a text that have a dollar sign, delimited identifiers aside. -/
def dollarTokens (text : List Char) : List Token := (tokens text).filter Token.hasDollar

/-- The placeholders of some numbers. -/
def placeholderTokens (numbers : List Nat) : List Token :=
  numbers.map fun number => .word (bare number)

/-- Tokens whose dollar signs are those of certain placeholders, delimited identifiers aside. -/
def Numbered (numbers : List Nat) (ts : List Token) : Prop :=
  ts.filter Token.hasDollar = placeholderTokens numbers

/-- A text with certain placeholders. -/
def Shows (text : List Char) (numbers : List Nat) : Prop := ReadsAs (Numbered numbers) text

/-- A fixed text without dollar signs that ends between tokens. -/
def leads (text : List Char) : Bool :=
  (scan .between text).2 = .between && !(scan .between text).1.any Token.hasDollar

/-- A fixed text without dollar signs that ends with a token. -/
def standsAlone (text : List Char) : Bool :=
  match (scan .between text).2.pending with
  | some last => !((scan .between text).1 ++ last).any Token.hasDollar
  | none => false

/-- Tokens without dollar signs hold no placeholder. -/
theorem numbered_nil {ts : List Token} (h : ts.any Token.hasDollar = false) : Numbered [] ts := by
  rw [Numbered, List.filter_eq_nil_iff.mpr (List.any_eq_false.mp h)]
  rfl

/-- The placeholders of two runs of tokens are those of the one and then of the other. -/
theorem Numbered.append {ns ms : List Nat} {ts us : List Token} (hts : Numbered ns ts)
    (hus : Numbered ms us) : Numbered (ns ++ ms) (ts ++ us) := by
  rw [Numbered, List.filter_append, hts, hus]
  exact List.map_append.symm

/-- The tokens of a text with dollar signs are the placeholders that it shows. -/
theorem dollarTokens_of_shows {text : List Char} {numbers : List Nat} (h : Shows text numbers) :
    dollarTokens text = placeholderTokens numbers :=
  h.tokens.2

/-- A text that begins with a separating character does so with anything behind it. -/
theorem separated_append {a : List Char} (ha : a.head?.any separates) (b : List Char) :
    Separated (a ++ b) := by
  cases a with
  | nil => cases ha
  | cons c rest => exact ha

namespace Shows

variable {a b : List Char} {ns ms : List Nat}

/-- Two texts that are kept apart show their placeholders one after the other. -/
theorem append (ha : Shows a ns) (hsep : Separated b) (hb : Shows b ms) :
    Shows (a ++ b) (ns ++ ms) := by
  obtain ⟨ts, ha, hts⟩ := ha
  obtain ⟨us, hb, hus⟩ := hb
  exact ⟨_, ha.append hsep hb, hts.append hus⟩

/-- A fixed text before a text with placeholders. -/
theorem after (ha : leads a) (hb : Shows b ns) : Shows (a ++ b) ns := by
  rw [leads, Bool.and_eq_true, Bool.not_eq_true', decide_eq_true_eq] at ha
  obtain ⟨ts, hb, hts⟩ := hb
  have hcloses : Closes a (scan .between a).1 := Prod.ext rfl ha.1
  exact ⟨_, hcloses.append hb, (numbered_nil ha.2).append hts⟩

/-- A blank in front changes no placeholder. -/
theorem blank (hb : Shows b ns) : Shows (' ' :: b) ns := after (a := [' ']) rfl hb

/-- A fixed text without dollar signs shows no placeholder. -/
theorem fixed (ha : standsAlone a) : Shows a [] := by
  rw [standsAlone] at ha
  split at ha
  · rename_i last hlast
    exact ⟨_, ⟨_, _, last, rfl, hlast, rfl⟩, numbered_nil ((Bool.not_eq_true' _).mp ha)⟩
  · cases ha

/-- A fixed text after a text with placeholders. -/
theorem before (ha : Shows a ns) (hsep : Separated b) (hb : standsAlone b) : Shows (a ++ b) ns := by
  have h := ha.append hsep (fixed hb)
  rwa [List.append_nil] at h

/-- A fixed text between two texts with placeholders. -/
theorem between {c : List Char} (ha : Shows a ns) (hsep : b.head?.any separates) (hb : leads b)
    (hc : Shows c ms) : Shows (a ++ b ++ c) (ns ++ ms) := by
  rw [List.append_assoc]
  exact ha.append (separated_append hsep c) (hc.after hb)

/-- Parentheses change no placeholder. -/
theorem parenthesized (ha : Shows a ns) : Shows ('(' :: (a ++ [')'])) ns :=
  after (a := ['(']) rfl (ha.before rfl rfl)

end Shows

/-- Texts with a separator between them have the placeholders of each in turn. -/
theorem shows_separated {separator : List Char} (hsep : separator.head?.any separates)
    (hleads : leads separator) {parts : List (List Char)} {numbers : List (List Nat)}
    (h : List.Forall₂ Shows parts numbers) :
    Shows (separated separator parts) numbers.flatten := by
  induction h with
  | nil => exact Shows.fixed rfl
  | cons hfirst hothers ih =>
    cases hothers with
    | nil =>
      rw [List.flatten_singleton]
      exact hfirst
    | cons _ _ => exact hfirst.append (separated_append hsep _) (ih.after hleads)

/-- A list shows the placeholders of its parts in their order. -/
theorem shows_listed {parts : List (List Char)} {numbers : List (List Nat)}
    (h : List.Forall₂ Shows parts numbers) : Shows (listed parts) numbers.flatten :=
  shows_separated rfl rfl h

/-- Texts without placeholders are listed without any. -/
theorem shows_listed_nil {parts : List (List Char)} (h : ∀ part ∈ parts, Shows part []) :
    Shows (listed parts) [] := by
  have hnumbers : List.Forall₂ Shows parts (parts.map fun _ => []) := by
    rw [List.forall₂_map_right_iff]
    exact List.forall₂_same.mpr h
  have hflatten : (parts.map fun _ => ([] : List Nat)).flatten = [] := by simp
  rw [← hflatten]
  exact shows_listed hnumbers

/-! ## The pieces of a statement -/

/-- A delimited identifier shows no placeholder, whatever its name. -/
theorem shows_quoted (name : String) : Shows (quoted name) [] :=
  ⟨_, reads_quoted name, rfl⟩

/-- A placeholder shows its number. -/
theorem shows_bare (number : Nat) : Shows (bare number) [number] :=
  ⟨_, reads_bare number, rfl⟩

/-- No numeral has a dollar sign. -/
theorem contains_dollar_numeral (n : Nat) : (numeral n).contains '$' = false := by
  rw [← Bool.not_eq_true, List.contains_iff_mem]
  intro h
  cases Numeral.isDigit_of_mem_ofNat h

/-- An alias shows no placeholder. -/
theorem shows_alias (a : Alias) : Shows a.text [] := by
  refine ⟨_, reads_alias a, numbered_nil ?_⟩
  cases a with
  | main => rfl
  | nested number =>
    rw [List.any_cons, List.any_nil, Bool.or_false]
    exact contains_dollar_numeral number

/-- A table shows no placeholder. -/
theorem shows_table (t : TableRef) : Shows t.text [] := ⟨_, reads_table t, rfl⟩

/-- A column shows no placeholder. -/
theorem shows_column (c : ColumnRef) : Shows c.text [] := by
  have hdot : leads ['.'] := rfl
  exact (shows_alias c.owner).append rfl ((shows_quoted c.column).after hdot)

/-! ## Types -/

/-- Whether a character is neither a dollar sign nor a quote. -/
def isOpenChar (c : Char) : Bool := c ≠ '$' && c ≠ '"' && c ≠ '\''

/-- Whether a type has neither dollar signs nor quotes. -/
def isOpenType (type : String) : Bool := type.toList.all isOpenChar

/-- The types that a resource casts to have neither dollar signs nor quotes. -/
def HasOpenTypes (r : Resource) : Prop := ∀ column ∈ r.columns, column.type.all isOpenType

instance (r : Resource) : Decidable (HasOpenTypes r) :=
  inferInstanceAs (Decidable (∀ column ∈ r.columns, column.type.all isOpenType))

/-- A reading between tokens, or in a word without dollar signs. -/
def Scan.isOpen : Scan → Bool
  | .between => true
  | .word read => !read.contains '$'
  | .inside _ _ => false
  | .closing _ _ => false

/-- Reading begins at an open character without a dollar sign or a delimiter. -/
theorem start_open {c : Char} (hc : isOpenChar c) :
    (Scan.start c).1.any Token.hasDollar = false ∧ (Scan.start c).2.isOpen := by
  simp only [isOpenChar, Bool.and_eq_true, decide_eq_true_eq] at hc
  obtain ⟨⟨hdollar, hdouble⟩, hsingle⟩ := hc
  unfold Scan.start
  rw [if_neg hdouble, if_neg hsingle]
  split
  · exact ⟨rfl, by simp [Scan.isOpen, Ne.symm hdollar]⟩
  · split
    · exact ⟨rfl, rfl⟩
    · exact ⟨by simp [Token.hasDollar, hdollar], rfl⟩

/-- Reading goes on over an open character without a dollar sign or a delimiter. -/
theorem step_open {s : Scan} (hs : s.isOpen) {c : Char} (hc : isOpenChar c) :
    (s.step c).1.any Token.hasDollar = false ∧ (s.step c).2.isOpen := by
  obtain ⟨htokens, hstart⟩ := start_open hc
  cases s with
  | between => exact ⟨htokens, hstart⟩
  | word read =>
    rw [Scan.isOpen, Bool.not_eq_true'] at hs
    rw [Scan.step]
    split
    · simp only [isOpenChar, Bool.and_eq_true, decide_eq_true_eq] at hc
      exact ⟨rfl, by simpa [Scan.isOpen, Ne.symm hc.1.1] using hs⟩
    · refine ⟨?_, hstart⟩
      rw [List.any_cons, htokens, Bool.or_false]
      exact hs
  | inside quote read => cases hs
  | closing quote read => cases hs

/-- A text without dollar signs and quotes is read without either. -/
theorem scan_open {s : Scan} (hs : s.isOpen) {text : List Char} (h : text.all isOpenChar) :
    (scan s text).1.any Token.hasDollar = false ∧ (scan s text).2.isOpen := by
  induction text generalizing s with
  | nil => exact ⟨rfl, hs⟩
  | cons c rest ih =>
    rw [List.all_cons, Bool.and_eq_true] at h
    obtain ⟨htokens, hstep⟩ := step_open hs h.1
    obtain ⟨hothers, hlast⟩ := ih hstep h.2
    refine ⟨?_, hlast⟩
    rw [scan, List.any_append, htokens, hothers]
    rfl

/-- An open type shows no placeholder. -/
theorem shows_type {type : String} (h : isOpenType type) : Shows type.toList [] := by
  have hbetween : Scan.between.isOpen := rfl
  obtain ⟨htokens, hopen⟩ := scan_open hbetween h
  apply Shows.fixed
  rw [standsAlone]
  cases hs : (scan .between type.toList).2 with
  | between => simp [Scan.pending, htokens]
  | word read =>
    rw [hs, Scan.isOpen, Bool.not_eq_true'] at hopen
    show (!(_ ++ [Token.word read]).any Token.hasDollar) = true
    rw [List.any_append, htokens]
    simpa [Token.hasDollar] using hopen
  | inside quote read =>
    rw [hs] at hopen
    cases hopen
  | closing quote read =>
    rw [hs] at hopen
    cases hopen

/-- The types of a resource with open types are open. -/
theorem columnType?_open {r : Resource} (hopen : HasOpenTypes r) (name : String) :
    (r.columnType? name).all isOpenType := by
  rw [Resource.columnType?, Option.all_bind, Option.all_eq_true]
  intro column hcolumn
  exact hopen column (List.mem_of_find?_eq_some hcolumn)

/-- A placeholder whose cast, if it has one, has neither dollar signs nor quotes. -/
def Placeholder.HasOpenCast (p : Placeholder) : Prop := p.cast.all isOpenType

/-- A placeholder with an open cast shows its number. -/
theorem shows_placeholder {p : Placeholder} (h : p.HasOpenCast) : Shows p.text [p.number] := by
  obtain ⟨number, cast⟩ := p
  have hcolons : leads [':', ':'] := rfl
  cases cast with
  | none => exact (shows_bare number).append rfl (Shows.fixed rfl)
  | some type => exact (shows_bare number).append rfl ((shows_type h).after hcolons)

/-- A list of placeholders with open casts shows their numbers. -/
theorem shows_placeholders {ps : List Placeholder} (h : ∀ p ∈ ps, p.HasOpenCast) :
    Shows (listed (ps.map Placeholder.text)) (ps.map Placeholder.number) := by
  have hparts : List.Forall₂ Shows (ps.map Placeholder.text) (ps.map fun p => [p.number]) := by
    rw [List.forall₂_map_left_iff, List.forall₂_map_right_iff]
    exact List.forall₂_same.mpr fun p hp => shows_placeholder (h p hp)
  have hflatten : (ps.map fun p => [p.number]).flatten = ps.map Placeholder.number := by
    rw [← List.flatMap_def, ← List.map_eq_flatMap]
  rw [← hflatten]
  exact shows_listed hparts

/-- Placeholders of one column with an open type have open casts. -/
theorem repeated_open {r : Resource} {column : String}
    (h : (r.columnType? column).all isOpenType) (bound count : Nat) :
    ∀ p ∈ repeated r column bound count, p.HasOpenCast := by
  intro p hp
  obtain ⟨number, _, rfl⟩ := List.mem_map.mp hp
  exact h

/-- Placeholders of one column are numbered on from the values bound before. -/
theorem map_number_repeated (r : Resource) (column : String) (bound count : Nat) :
    (repeated r column bound count).map Placeholder.number = List.range' (bound + 1) count := by
  rw [repeated, List.map_map]
  exact List.map_id _

/-! ## Selects of related rows -/

/-- A test on a trash mark shows no placeholder. -/
theorem shows_mark (mark : ColumnRef × Bool) : Shows (trashText mark) [] := by
  obtain ⟨column, set⟩ := mark
  cases set with
  | false => exact (shows_column column).before rfl rfl
  | true => exact (shows_column column).before rfl rfl

/-- The test on a trash mark shows no placeholder, whether there is one or not. -/
theorem shows_markText (mark : Option (ColumnRef × Bool)) : Shows (markText mark) [] := by
  cases mark with
  | none => exact Shows.fixed rfl
  | some mark =>
    have hand : leads " AND ".toList := rfl
    exact (shows_mark mark).after hand

/-- The source of a scope shows no placeholder. -/
theorem shows_source (s : Scope) : Shows s.source [] := by
  have hfrom : leads " FROM ".toList := rfl
  have htable := ((shows_table s.table).after hfrom).append rfl (shows_alias s.child).blank
  have hcorrelation : Shows s.correlation [] :=
    (shows_column ⟨s.child, s.foreignKey⟩).between rfl rfl (shows_column ⟨s.parent, s.localKey⟩)
  rw [s.source_eq]
  exact htable.between rfl rfl
    (hcorrelation.append (separated_markText s.mark) (shows_markText s.mark))

/-! ## Conditions -/

/-- A text with the placeholders of the values that are bound from some bindings to others. -/
def Spans (text : List Char) (s s' : Bindings) : Prop :=
  ∃ values, s'.values = s.values ++ values ∧
    Shows text (List.range' (s.values.length + 1) values.length)

namespace Spans

variable {a b : List Char} {s t s' : Bindings}

/-- A text without placeholders spans steps that bind nothing. -/
theorem of_shows (h : Shows a []) (hvalues : s'.values = s.values) : Spans a s s' :=
  ⟨[], by rw [hvalues, List.append_nil], h⟩

/-- Texts that span one step after another span both. -/
theorem append (ha : Spans a s t) (hsep : Separated b) (hb : Spans b t s') :
    Spans (a ++ b) s s' := by
  obtain ⟨values, hvalues, ha⟩ := ha
  obtain ⟨others, hothers, hb⟩ := hb
  refine ⟨values ++ others, by rw [hothers, hvalues, List.append_assoc], ?_⟩
  have hnumbers : List.range' (s.values.length + 1) (values ++ others).length =
      List.range' (s.values.length + 1) values.length ++
        List.range' (t.values.length + 1) others.length := by
    rw [hvalues, List.length_append, List.length_append, Nat.add_right_comm, List.range'_append_1]
  rw [hnumbers]
  exact ha.append hsep hb

/-- A text goes where another with its placeholders does. -/
theorem imp (hab : ∀ ns, Shows a ns → Shows b ns) (h : Spans a s s') : Spans b s s' := by
  obtain ⟨values, hvalues, ha⟩ := h
  exact ⟨values, hvalues, hab _ ha⟩

end Spans

/-- The condition of a test spans the values that it binds. -/
theorem test_spans {r : Resource} (hopen : HasOpenTypes r) {column : ColumnRef}
    {condition : Condition} {s s' : Bindings} (h : TestBuilt r column s condition s') :
    Spans condition.text s s' := by
  have hcolumn := shows_column column
  have htype := columnType?_open hopen column.column
  cases h with
  | isNull negated => exact .of_shows (shows_mark (column, negated)) rfl
  | constant holds =>
    refine .of_shows ?_ rfl
    cases holds <;> exact Shows.fixed rfl
  | equals negated value =>
    refine ⟨[value], rfl, ?_⟩
    have hvalue := shows_placeholder
      (p := ⟨s.values.length + 1, r.columnType? column.column⟩) htype
    cases negated with
    | false => exact hcolumn.between rfl rfl hvalue
    | true => exact hcolumn.between rfl rfl hvalue
  | member negated values =>
    have hps := shows_placeholders (repeated_open htype s.values.length values.length)
    rw [map_number_repeated] at hps
    refine ⟨values, rfl, ?_⟩
    cases negated with
    | false => exact (hcolumn.between rfl rfl hps).before rfl rfl
    | true => exact (hcolumn.between rfl rfl hps).before rfl rfl

/-- The conditions behind the first begin with a blank, if there are any. -/
theorem separated_tailText (conditions : List (Joiner × Condition)) :
    Separated (tailText conditions) := by
  cases conditions <;> rfl

/-- A condition after another has the placeholders of its text. -/
theorem shows_joined (joiner : Joiner) {text : List Char} {ns : List Nat} (h : Shows text ns) :
    Shows (' ' :: (joinerText joiner ++ ' ' :: text)) ns := by
  cases joiner with
  | and => exact h.after (a := " AND ".toList) rfl
  | or => exact h.after (a := " OR ".toList) rfl

/-- The condition of a predicate, wherever it is built, has the placeholders of its values. -/
def PredicateSpans (model : Model) (r : Resource) (owner : Alias) (predicate : Predicate) : Prop :=
  ∀ {s s' condition}, predicateCondition model r owner predicate s = .ok (condition, s') →
    Spans condition.text s s'

section

variable {model : Model} {r : Resource} {owner : Alias} {s s' : Bindings}

/-- The conditions behind the first span the values that their entries bind. -/
theorem tail_spans {clause : Clause}
    (h : ∀ entry ∈ clause, PredicateSpans model r owner entry.2)
    {conditions : List (Joiner × Condition)}
    (hconditions : clauseConditions model r owner clause s = .ok (conditions, s')) :
    Spans (tailText conditions) s s' := by
  induction clause generalizing s conditions with
  | nil =>
    cases hconditions
    exact .of_shows (Shows.fixed rfl) rfl
  | cons entry rest ih =>
    obtain ⟨joiner, predicate⟩ := entry
    obtain ⟨hentry, hrest⟩ := List.forall_mem_cons.mp h
    obtain ⟨first, t, others, hfirst, hothers, rfl⟩ := entry_built hconditions
    have hspans := (hentry hfirst).append (separated_tailText others) (ih hrest hothers)
    exact hspans.imp fun _ => shows_joined joiner

/-- The conditions of a clause span the values that its entries bind. -/
theorem chain_spans {clause : Clause}
    (h : ∀ entry ∈ clause, PredicateSpans model r owner entry.2)
    {conditions : List (Joiner × Condition)}
    (hconditions : clauseConditions model r owner clause s = .ok (conditions, s')) :
    Spans (chainText conditions) s s' := by
  cases clause with
  | nil =>
    cases hconditions
    exact .of_shows (Shows.fixed rfl) rfl
  | cons entry rest =>
    obtain ⟨joiner, predicate⟩ := entry
    obtain ⟨hentry, hrest⟩ := List.forall_mem_cons.mp h
    obtain ⟨first, t, others, hfirst, hothers, rfl⟩ := entry_built hconditions
    exact (hentry hfirst).append (separated_tailText others) (tail_spans hrest hothers)

end

/-- A select that asks for a related row has the placeholders of its own condition. -/
theorem shows_existsRow (negated : Bool) (scope : Scope) {inner : List (Joiner × Condition)}
    {ns : List Nat} (h : Shows (chainText inner) ns) :
    Shows (Condition.existsRow negated scope inner).text ns := by
  have hselect : Shows "EXISTS (SELECT 1".toList [] := Shows.fixed rfl
  have hsource := hselect.append rfl (shows_source scope)
  have hcondition : Shows (if inner.isEmpty then [] else
      " AND (".toList ++ chainText inner ++ [')']) ns := by
    cases inner with
    | nil => exact h
    | cons first rest =>
      have hand : leads " AND (".toList := rfl
      exact (h.after hand).before rfl rfl
  have hseparated : Separated (if inner.isEmpty then [] else
      " AND (".toList ++ chainText inner ++ [')']) := by
    cases inner <;> rfl
  have hexists := (hsource.append hseparated hcondition).before rfl (b := [')']) rfl
  rw [existsRow_text]
  cases negated with
  | false => exact hexists
  | true =>
    have hnot : leads "NOT ".toList := rfl
    simpa only [if_true, List.append_assoc, List.nil_append] using hexists.after hnot

/-- A bound on a count of related rows shows its one placeholder. -/
theorem shows_countRows (scope : Scope) (comparator : CountComparator) (number : Nat) :
    Shows (Condition.countRows scope comparator number).text [number] := by
  have hselect : leads "(SELECT COUNT(*)".toList := rfl
  have hcomparator : Shows (comparatorText comparator) [] := by
    cases comparator <;> exact Shows.fixed rfl
  have hrows := ((shows_source scope).after hselect).between (b := ") ".toList) rfl rfl hcomparator
  exact hrows.append rfl (shows_bare number).blank

/-- A bound by a day shows its one placeholder. -/
theorem shows_day (column : ColumnRef) (bound : DateBound) (number : Nat) :
    Shows (Condition.day column bound number).text [number] := by
  have hcast : leads "CAST(".toList := rfl
  have hbound : Shows (boundText bound) [] := by
    cases bound <;> exact Shows.fixed rfl
  have hday := ((shows_column column).after hcast).between (b := " AS date) ".toList) rfl rfl hbound
  exact (hday.append rfl (shows_bare number).blank).before rfl rfl

/-- A search for a pattern shows its one placeholder. -/
theorem shows_like (column : ColumnRef) (number : Nat) :
    Shows (Condition.like column number).text [number] := by
  have hcast : leads "CAST(".toList := rfl
  exact ((shows_column column).after hcast).between rfl rfl (shows_bare number)

/-- Each predicate has the placeholders of the values that its condition binds. -/
theorem predicate_spans {model : Model} (hopen : ∀ r ∈ model.resources, HasOpenTypes r)
    (predicate : Predicate) {r : Resource} (hr : HasOpenTypes r) (owner : Alias) :
    PredicateSpans model r owner predicate := by
  induction predicate using Predicate.induct generalizing r owner with
  | condition column test =>
    intro s s' condition h
    exact test_spans hr (testCondition_built h)
  | date column bound day =>
    intro s s' condition h
    cases h
    exact ⟨[.text day], rfl, shows_day _ bound _⟩
  | contains column term =>
    intro s s' condition h
    cases h
    exact ⟨[.text (containsPattern term)], rfl, shows_like _ _⟩
  | related name negated clause ih =>
    intro s s' condition h
    obtain ⟨relation, target, inner, hrelated, hinner, rfl⟩ := related_built h
    -- the source of the scope shows none, so the placeholders are those of the clause inside
    have htarget := hopen target (Model.mem_of_related hrelated)
    have hchain := chain_spans (fun entry hentry => ih entry hentry htarget _) hinner
    exact hchain.imp fun _ => shows_existsRow negated _
  | count name comparator n =>
    intro s s' condition h
    obtain ⟨relation, target, _, rfl, rfl⟩ := count_built h
    exact ⟨[.int n], rfl, shows_countRows _ comparator _⟩
  | group clause ih =>
    intro s s' condition h
    obtain ⟨inner, hinner, rfl⟩ := group_built h
    have hchain := chain_spans (fun entry hentry => ih entry hentry hr owner) hinner
    exact hchain.imp fun _ => Shows.parenthesized

end Records.Sql
