import Records.Proofs.Sql.Grammar

/-!
# Comparisons

Every test of a column and every count of related rows is written as one comparison: no keyword
that ends a comparison stands in it outside parentheses, and its parentheses are closed.
Identifiers may hold any character; the types to which values are cast have to be plain names.
-/

set_option autoImplicit false

namespace Records.Sql

/-- Whether a character can stand in the name of a type. -/
def isTypeChar (c : Char) : Bool := c.isAlphanum || c ∈ "_ .,()[]".toList

/-- A plain type name, possibly with a length or a precision: no quotes, closed parentheses, and no
word that ends a comparison. -/
def isPlainType (type : String) : Bool :=
  type.toList.all isTypeChar &&
    depthAfter Token.endsComparison 0 (tokens type.toList) = some 0

/-- The types that a resource casts to are plain. -/
def HasPlainTypes (r : Resource) : Prop := ∀ column ∈ r.columns, column.type.all isPlainType

instance (r : Resource) : Decidable (HasPlainTypes r) :=
  inferInstanceAs (Decidable (∀ column ∈ r.columns, column.type.all isPlainType))

def closesParenthesis (t : Token) : Bool := t = .sign ')'

/-- Tokens that close the parentheses that they open, and no others. -/
abbrev Balanced : List Token → Prop := Unstopped closesParenthesis

/-- A token that neither opens nor closes nor ends anything. -/
def Token.isPlain (t : Token) : Bool := !t.endsComparison && !t.isRestriction && t ≠ .sign '('

/-- A plain token does not end a comparison. -/
theorem Token.endsComparison_of_isPlain (t : Token) (h : t.isPlain) : t.endsComparison = false := by
  simp only [isPlain, Bool.and_eq_true, Bool.not_eq_true'] at h
  exact h.1.1

/-- A plain token does not begin a condition. -/
theorem Token.isRestriction_of_isPlain (t : Token) (h : t.isPlain) : t.isRestriction = false := by
  simp only [isPlain, Bool.and_eq_true, Bool.not_eq_true'] at h
  exact h.1.2

/-- A plain token leaves the depth of parentheses. -/
theorem Token.deepen_of_isPlain (depth : Nat) {t : Token} (h : t.isPlain) :
    t.deepen depth = depth := by
  simp only [isPlain, endsComparison, endsConjunction, endsDisjunction, Bool.and_eq_true,
    Bool.not_eq_true', Bool.or_eq_false_iff, decide_eq_true_eq, decide_eq_false_iff_not] at h
  simp [deepen, h]

/-- Plain tokens are never stopped at, as long as no plain token stops. -/
theorem unstopped_of_isPlain {stops : Token → Bool}
    (hstops : ∀ t : Token, t.isPlain → stops t = false) {ts : List Token}
    (h : ∀ t ∈ ts, t.isPlain) : Unstopped stops ts := by
  induction ts with
  | nil => rfl
  | cons t rest ih =>
    obtain ⟨ht, hrest⟩ := List.forall_mem_cons.mp h
    unfold Unstopped
    rw [depthAfter, t.deepen_of_isPlain 0 ht, hstops t ht]
    exact ih hrest

/-- No comparison ends in plain tokens. -/
theorem whole_of_isPlain {ts : List Token} (h : ∀ t ∈ ts, t.isPlain) : Whole ts :=
  unstopped_of_isPlain Token.endsComparison_of_isPlain h

/-- No condition begins in plain tokens. -/
theorem unrestricted_of_isPlain {ts : List Token} (h : ∀ t ∈ ts, t.isPlain) :
    Unstopped Token.isRestriction ts :=
  unstopped_of_isPlain Token.isRestriction_of_isPlain h

/-- Tokens at which nothing stops are gone through alike when less stops. -/
theorem depthAfter_of_imp {stops weaker : Token → Bool} (himp : ∀ t, weaker t → stops t)
    {depth after : Nat} {ts : List Token} (h : depthAfter stops depth ts = some after) :
    depthAfter weaker depth ts = some after := by
  induction ts generalizing depth with
  | nil => exact h
  | cons t rest ih =>
    rw [depthAfter] at h ⊢
    split at h
    · cases h
    rename_i hgo
    have hweaker : ¬(decide (depth = 0) && weaker t) = true := by
      intro hstop
      rw [Bool.and_eq_true] at hstop
      exact hgo (by rw [Bool.and_eq_true]; exact ⟨hstop.1, himp t hstop.2⟩)
    rw [if_neg hweaker]
    exact ih h

/-- Tokens in which no comparison ends close the parentheses that they open. -/
theorem Whole.balanced {ts : List Token} (h : Whole ts) : Balanced ts := by
  refine depthAfter_of_imp (fun t ht => ?_) h
  have hsign : t = .sign ')' := by simpa [closesParenthesis] using ht
  rw [hsign]
  rfl

/-- Two runs of tokens at which nothing stops make one. -/
theorem Unstopped.append {stops : Token → Bool} {ts us : List Token} (hts : Unstopped stops ts)
    (hus : Unstopped stops us) : Unstopped stops (ts ++ us) := by
  unfold Unstopped at hts hus ⊢
  rw [depthAfter_append, hts]
  exact hus

/-- Parentheses around balanced tokens hide them. -/
theorem Balanced.parenthesized {ts : List Token} (h : Balanced ts) {stops : Token → Bool}
    (hopen : stops (.sign '(') = false) : Unstopped stops (.sign '(' :: (ts ++ [.sign ')'])) := by
  have hinner : depthAfter stops 1 ts = some 1 := depthAfter_succ rfl h stops
  have hdeepen : (Token.sign '(').deepen 0 = 1 := rfl
  rw [Unstopped, depthAfter, hopen, hdeepen]
  simp only [Bool.and_false, Bool.false_eq_true, if_false]
  rw [depthAfter_append, hinner]
  rfl

/-- No comparison ends within parentheses. -/
theorem Balanced.whole {ts : List Token} (h : Balanced ts) :
    Whole (.sign '(' :: (ts ++ [.sign ')'])) :=
  h.parenthesized rfl

/-- Nothing stops in a list of tokens when nothing does in its parts or at a comma. -/
theorem Unstopped.listedTokens {stops : Token → Bool} (hcomma : stops (.sign ',') = false)
    (parts : List (List Token)) (h : ∀ part ∈ parts, Unstopped stops part) :
    Unstopped stops (listedTokens parts) := by
  induction parts with
  | nil => rfl
  | cons part rest ih =>
    have hpart := h part (by simp)
    cases rest with
    | nil => exact hpart
    | cons other others =>
      have hothers := ih fun next hnext => h next (List.mem_cons_of_mem _ hnext)
      have hcomma : Unstopped stops [.sign ','] := by
        simp [Unstopped, depthAfter, hcomma, Token.deepen]
      exact hpart.append (hcomma.append hothers)

/-- A word is no keyword when no keyword has its first letter. -/
theorem keyword?_eq_none {c : Char} {rest : List Char}
    (h : ∀ k : Keyword, k.text.head? ≠ some c.toUpper) :
    (Token.word (c :: rest)).keyword? = none := by
  unfold Token.keyword?
  rw [List.find?_eq_none]
  intro k _ hk
  have htext : k.text = (c :: rest).map Char.toUpper := by simpa using hk
  apply h k
  rw [htext]
  rfl

/-- A word that is no keyword is plain. -/
theorem isPlain_of_keyword? {text : List Char} (h : (Token.word text).keyword? = none) :
    (Token.word text).isPlain := by
  simp [Token.isPlain, Token.endsComparison, Token.endsConjunction, Token.endsDisjunction,
    Token.isRestriction, h]

/-- A placeholder is no keyword. -/
theorem keyword?_bare (number : Nat) : (Token.word (bare number)).keyword? = none :=
  keyword?_eq_none fun k => by cases k <;> decide

/-- An alias is no keyword. -/
theorem keyword?_alias (a : Alias) : (Token.word a.text).keyword? = none := by
  cases a with
  | main => exact keyword?_eq_none fun k => by cases k <;> decide
  | nested number => exact keyword?_eq_none fun k => by cases k <;> decide

/-- The tokens of a column are plain. -/
theorem isPlain_of_mem_column {c : ColumnRef} {t : Token} (ht : t ∈ c.tokens) : t.isPlain := by
  simp only [ColumnRef.tokens, List.mem_cons, List.not_mem_nil, or_false] at ht
  rcases ht with rfl | rfl | rfl
  · exact isPlain_of_keyword? (keyword?_alias c.owner)
  · rfl
  · rfl

/-- The tokens of a table are plain. -/
theorem isPlain_of_mem_table {table : TableRef} {t : Token} (ht : t ∈ table.tokens) :
    t.isPlain := by
  simp only [TableRef.tokens, List.mem_cons, List.not_mem_nil, or_false] at ht
  rcases ht with rfl | rfl | rfl <;> rfl

/-- No comparison ends in a column. -/
theorem whole_column (c : ColumnRef) : Whole c.tokens :=
  whole_of_isPlain fun _ ht => isPlain_of_mem_column ht

/-- No comparison ends in a placeholder. -/
theorem whole_bare (number : Nat) : Whole [.word (bare number)] := by
  apply whole_of_isPlain
  intro t ht
  rw [List.mem_singleton.mp ht]
  exact isPlain_of_keyword? (keyword?_bare number)

/-- A placeholder whose cast, if it has one, is to a plain type. -/
def Placeholder.HasPlainCast (p : Placeholder) : Prop :=
  ∀ type, p.cast = some type → isPlainType type

/-- A plain type has the tokens of its text wherever it stands. -/
theorem reads_type {type : String} (h : isPlainType type) :
    Reads type.toList (tokens type.toList) := by
  rw [isPlainType, Bool.and_eq_true, List.all_eq_true] at h
  apply reads_of_no_quote
  intro c hc
  have htype := h.1 c hc
  constructor
  · rintro rfl
    cases htype
  · rintro rfl
    cases htype

/-- Texts with commas between them are read without a stop when each of them is. -/
theorem listed_unstopped {stops : Token → Bool} (hcomma : stops (.sign ',') = false)
    (parts : List (List Char)) (h : ∀ part ∈ parts, ReadsAs (Unstopped stops) part) :
    ReadsAs (Unstopped stops) (listed parts) := by
  have hreads := @reads_listed (List Char) id tokens parts fun part hpart => (h part hpart).tokens.1
  rw [List.map_id] at hreads
  refine ⟨_, hreads, Unstopped.listedTokens hcomma _ ?_⟩
  intro ts hts
  obtain ⟨part, hpart, rfl⟩ := List.mem_map.mp hts
  exact (h part hpart).tokens.2

/-- A placeholder stands inside a comparison. -/
theorem placeholder_whole (p : Placeholder) (h : p.HasPlainCast) : ReadsAs Whole p.text := by
  have hbare := reads_bare p.number
  unfold Placeholder.text
  cases hcast : p.cast with
  | none => exact ⟨[.word (bare p.number)] ++ [], hbare.append rfl Reads.nil, whole_bare p.number⟩
  | some type =>
    have hplain := h type hcast
    have hcolons : Closes [':', ':'] [.sign ':', .sign ':'] := rfl
    have htype := hcolons.append (reads_type hplain)
    have hwhole : Whole (tokens type.toList) := by
      rw [isPlainType, Bool.and_eq_true, decide_eq_true_eq] at hplain
      exact hplain.2
    have hsigns : Whole [.sign ':', .sign ':'] := rfl
    exact ⟨_, hbare.append rfl htype, (whole_bare p.number).append (hsigns.append hwhole)⟩

/-- No comparison ends in a list of placeholders with plain casts. -/
theorem placeholders_whole (ps : List Placeholder) (h : ∀ p ∈ ps, p.HasPlainCast) :
    ReadsAs Whole (listed (ps.map Placeholder.text)) := by
  apply listed_unstopped rfl
  intro part hpart
  obtain ⟨p, hp, rfl⟩ := List.mem_map.mp hpart
  exact placeholder_whole p (h p hp)

/-- A column with anything in which no comparison ends is one comparison. -/
theorem isComparison_column (c : ColumnRef) {ts : List Token} (h : Whole ts) :
    IsComparison (c.tokens ++ ts) :=
  ⟨⟨_, _, rfl, keyword?_alias c.owner, fun hopen => by cases hopen⟩, (whole_column c).append h⟩

/-- A column that is cast, with anything in which no comparison ends, is one comparison. -/
theorem isComparison_cast (c : ColumnRef) (type : List Char) {ts : List Token}
    (htype : (Token.word type).isPlain) (h : Whole ts) :
    IsComparison ([.word "CAST".toList, .sign '('] ++ c.tokens ++
      (.word "AS".toList :: .word type :: .sign ')' :: ts)) := by
  refine ⟨⟨_, _, rfl, by decide, fun hopen => by cases hopen⟩, ?_⟩
  have hword : Whole [.word "CAST".toList] := rfl
  have hinner : Whole (c.tokens ++ [.word "AS".toList, .word type]) := by
    refine (whole_column c).append (whole_of_isPlain fun t ht => ?_)
    simp only [List.mem_cons, List.not_mem_nil, or_false] at ht
    rcases ht with rfl | rfl
    · rfl
    · exact htype
  simpa using (hword.append hinner.balanced.whole).append h

/-- A test for null is one comparison. -/
theorem isNull_comparison (column : ColumnRef) (negated : Bool) :
    ReadsAs IsComparison (Condition.isNull column negated).text := by
  obtain ⟨ts, hseparated, hreads, hwhole⟩ :
      ∃ ts, Separated (if negated then " IS NOT NULL".toList else " IS NULL".toList) ∧
        Reads (if negated then " IS NOT NULL".toList else " IS NULL".toList) ts ∧ Whole ts := by
    cases negated with
    | false => exact ⟨[.word "IS".toList, .word "NULL".toList], rfl, ⟨_, _, _, rfl, rfl, rfl⟩, rfl⟩
    | true =>
      exact ⟨[.word "IS".toList, .word "NOT".toList, .word "NULL".toList], rfl,
        ⟨_, _, _, rfl, rfl, rfl⟩, rfl⟩
  exact ⟨_, (reads_column column).append hseparated hreads, isComparison_column column hwhole⟩

/-- A test for a value is one comparison. -/
theorem equals_comparison (column : ColumnRef) (negated : Bool) (p : Placeholder)
    (h : p.HasPlainCast) : ReadsAs IsComparison (Condition.equals column negated p).text := by
  obtain ⟨ts, hts, hwhole⟩ := placeholder_whole p h
  obtain ⟨signs, hseparated, hsigns, hsignsWhole⟩ :
      ∃ signs, (if negated then " <> ".toList else " = ".toList).head?.any separates ∧
        Closes (if negated then " <> ".toList else " = ".toList) signs ∧ Whole signs := by
    cases negated with
    | false => exact ⟨[.sign '='], rfl, rfl, rfl⟩
    | true => exact ⟨[.sign '<', .sign '>'], rfl, rfl, rfl⟩
  have hleft := (reads_column column).append_closes hseparated hsigns
  refine ⟨_, hleft.append hts, ?_⟩
  rw [List.append_assoc]
  exact isComparison_column column (hsignsWhole.append hwhole)

/-- A test for values of a list is one comparison, also when the list is empty. -/
theorem member_comparison (column : ColumnRef) (negated : Bool) (ps : List Placeholder)
    (h : ∀ p ∈ ps, p.HasPlainCast) :
    ReadsAs IsComparison (Condition.member column negated ps).text := by
  obtain ⟨ts, hts, hwhole⟩ := placeholders_whole ps h
  obtain ⟨words, hseparated, hwords, hwordsWhole⟩ :
      ∃ words, (if negated then " NOT IN (".toList else " IN (".toList).head?.any separates ∧
        Closes (if negated then " NOT IN (".toList else " IN (".toList) (words ++ [.sign '(']) ∧
        Whole words := by
    cases negated with
    | false => exact ⟨[.word "IN".toList], rfl, rfl, rfl⟩
    | true => exact ⟨[.word "NOT".toList, .word "IN".toList], rfl, rfl, rfl⟩
  have hleft := (reads_column column).append_closes hseparated hwords
  refine ⟨_, ((hleft.append hts).append_closes rfl closes_parenthesis).reads, ?_⟩
  simpa using isComparison_column column (hwordsWhole.append hwhole.balanced.whole)

/-- A constant is written as one comparison. -/
theorem constant_comparison (holds : Bool) :
    ReadsAs IsComparison (Condition.constant holds).text := by
  show ReadsAs IsComparison (if holds then _ else _)
  cases holds with
  | false =>
    have hreads : Reads "1 = 0".toList [.word "1".toList, .sign '=', .word "0".toList] :=
      ⟨_, _, _, rfl, rfl, rfl⟩
    exact ⟨_, hreads, ⟨_, _, rfl, by decide, fun hopen => by cases hopen⟩, rfl⟩
  | true =>
    have hreads : Reads "1 = 1".toList [.word "1".toList, .sign '=', .word "1".toList] :=
      ⟨_, _, _, rfl, rfl, rfl⟩
    exact ⟨_, hreads, ⟨_, _, rfl, by decide, fun hopen => by cases hopen⟩, rfl⟩

/-- A bound by a day is one comparison. -/
theorem day_comparison (column : ColumnRef) (bound : DateBound) (number : Nat) :
    ReadsAs IsComparison (Condition.day column bound number).text := by
  have hcast : Closes "CAST(".toList [.word "CAST".toList, .sign '('] := rfl
  have has : Closes " AS date) ".toList [.word "AS".toList, .word "date".toList, .sign ')'] := rfl
  have hcolumn := (hcast.append (reads_column column)).append_closes rfl has
  obtain ⟨signs, hsigns, hbound⟩ : ∃ ts, Closes (boundText bound) ts ∧ Whole ts := by
    cases bound with
    | lower => exact ⟨[.sign '>', .sign '='], rfl, rfl⟩
    | upper => exact ⟨[.sign '<', .sign '='], rfl, rfl⟩
  have hdate : Reads "::date".toList [.sign ':', .sign ':', .word "date".toList] :=
    ⟨_, _, _, rfl, rfl, rfl⟩
  have hwhole : Whole [.sign ':', .sign ':', .word "date".toList] := rfl
  have hnumber := (hcolumn.append_closes hsigns).append (reads_bare number).after_blank
  refine ⟨_, hnumber.append rfl hdate, ?_⟩
  have hday := isComparison_cast column "date".toList (by decide)
    (hbound.append ((whole_bare number).append hwhole))
  simpa using hday

/-- A search for a pattern is one comparison. -/
theorem like_comparison (column : ColumnRef) (number : Nat) :
    ReadsAs IsComparison (Condition.like column number).text := by
  have hcast : Closes "CAST(".toList [.word "CAST".toList, .sign '('] := rfl
  have has : Closes " AS text) ILIKE ".toList
      [.word "AS".toList, .word "text".toList, .sign ')', .word "ILIKE".toList] := rfl
  have hcolumn := (hcast.append (reads_column column)).append_closes rfl has
  have hword : Whole [.word "ILIKE".toList] := rfl
  refine ⟨_, hcolumn.append (reads_bare number), ?_⟩
  have hlike := isComparison_cast column "text".toList (by decide)
    (hword.append (whole_bare number))
  simpa using hlike

/-- The text that ties related rows to their row, the trash aside. -/
def Scope.correlation (s : Scope) : List Char :=
  ColumnRef.text ⟨s.child, s.foreignKey⟩ ++ " = ".toList ++ ColumnRef.text ⟨s.parent, s.localKey⟩

/-- The trash mark of the related rows, which must not be set. -/
def Scope.mark (s : Scope) : Option (ColumnRef × Bool) :=
  s.softDeleteColumn.map fun column => (⟨s.child, column⟩, false)

/-- The text of a test on a trash mark after another test. -/
def markText : Option (ColumnRef × Bool) → List Char
  | none => []
  | some mark => " AND ".toList ++ trashText mark

/-- The condition of a scope is its correlation and the test on its trash mark. -/
theorem Scope.text_eq (s : Scope) : s.text = s.correlation ++ markText s.mark := by
  rw [Scope.text, Scope.mark]
  cases s.softDeleteColumn with
  | none => rfl
  | some column =>
    show _ ++ (" AND ".toList ++ _ ++ " IS NULL".toList) = _ ++ (" AND ".toList ++ (_ ++ _))
    rw [List.append_assoc " AND ".toList]
    rfl

/-- The source of a scope is its table under its alias, with its condition. -/
theorem Scope.source_eq (s : Scope) :
    s.source = " FROM ".toList ++ s.table.text ++ ' ' :: s.child.text ++ " WHERE ".toList ++
      (s.correlation ++ markText s.mark) := by
  rw [← s.text_eq]
  rfl

/-- The correlation of a scope is one comparison. -/
theorem correlation_comparison (s : Scope) : ReadsAs IsComparison s.correlation := by
  have hsign : Closes " = ".toList [.sign '='] := rfl
  have hequals : Whole [.sign '='] := rfl
  refine ⟨_, ((reads_column _).append_closes rfl hsign).append (reads_column _), ?_⟩
  rw [List.append_assoc]
  exact isComparison_column _ (hequals.append (whole_column _))

/-- A test on a trash mark is one comparison. -/
theorem mark_comparison (mark : ColumnRef × Bool) : ReadsAs IsComparison (trashText mark) :=
  isNull_comparison mark.1 mark.2

/-- The test on a trash mark begins with a blank, if there is one. -/
theorem separated_markText (mark : Option (ColumnRef × Bool)) : Separated (markText mark) := by
  cases mark with
  | none => rfl
  | some mark => rfl

/-- The test on a trash mark closes the parentheses that it opens. -/
theorem markText_balanced (mark : Option (ColumnRef × Bool)) :
    ReadsAs Balanced (markText mark) := by
  cases mark with
  | none => exact ⟨[], Reads.nil, rfl⟩
  | some mark =>
    obtain ⟨ts, hts, hcomparison⟩ := mark_comparison mark
    have hword : Balanced [.word "AND".toList] := rfl
    exact ⟨_, closes_and.append hts, hword.append hcomparison.whole.balanced⟩

/-- The tokens of the related rows, up to their condition. -/
def Scope.rowsTokens (s : Scope) : List Token :=
  .word "FROM".toList :: (s.table.tokens ++ [.word s.child.text])

/-- The tokens of related rows are plain. -/
theorem isPlain_of_mem_rowsTokens {s : Scope} {t : Token} (ht : t ∈ s.rowsTokens) : t.isPlain := by
  simp only [Scope.rowsTokens, List.mem_cons, List.mem_append, List.not_mem_nil, or_false] at ht
  rcases ht with rfl | ht | rfl
  · rfl
  · exact isPlain_of_mem_table ht
  · exact isPlain_of_keyword? (keyword?_alias s.child)

/-- No condition begins in the tokens of related rows. -/
theorem unrestricted_rowsTokens (s : Scope) :
    Unstopped Token.isRestriction (.word "1".toList :: s.rowsTokens) := by
  apply unrestricted_of_isPlain
  intro t ht
  rcases List.mem_cons.mp ht with rfl | ht
  · rfl
  · exact isPlain_of_mem_rowsTokens ht

/-- The condition of a scope closes the parentheses that it opens. -/
theorem scope_balanced (s : Scope) : ReadsAs Balanced s.text := by
  obtain ⟨correlation, hcorrelation, hcomparison⟩ := correlation_comparison s
  obtain ⟨mark, hmark, hbalanced⟩ := markText_balanced s.mark
  rw [s.text_eq]
  exact ⟨_, hcorrelation.append (separated_markText s.mark) hmark,
    hcomparison.whole.balanced.append hbalanced⟩

/-- The rows of a scope with a condition are read as their tokens, `WHERE` and those of the
condition. -/
theorem reads_rows (s : Scope) {condition : List Char} {ts : List Token}
    (h : Reads condition ts) :
    Reads (" FROM ".toList ++ s.table.text ++ ' ' :: s.child.text ++ " WHERE ".toList ++ condition)
      (s.rowsTokens ++ .word "WHERE".toList :: ts) := by
  have hfrom : Closes " FROM ".toList [.word "FROM".toList] := rfl
  have hwhere : Closes " WHERE ".toList [.word "WHERE".toList] := rfl
  have htable := (hfrom.append (reads_table s.table)).append rfl (reads_alias s.child).after_blank
  have hrows := (htable.append_closes rfl hwhere).append h
  rw [List.append_assoc _ [Token.word "WHERE".toList]] at hrows
  exact hrows

/-- The source of a scope closes the parentheses that it opens. -/
theorem source_balanced (s : Scope) : ReadsAs Balanced s.source := by
  obtain ⟨ts, hts, hbalanced⟩ := scope_balanced s
  have hrows : Balanced s.rowsTokens :=
    (whole_of_isPlain fun _ ht => isPlain_of_mem_rowsTokens ht).balanced
  have hwhere : Balanced [.word "WHERE".toList] := rfl
  exact ⟨_, reads_rows s hts, hrows.append (hwhere.append hbalanced)⟩

/-- The tokens of the rows that a test for existence goes through. -/
theorem tokens_rows (s : Scope) :
    tokens ("1 FROM ".toList ++ s.table.text ++ ' ' :: s.child.text) =
      .word "1".toList :: s.rowsTokens := by
  have hfrom : Closes "1 FROM ".toList [.word "1".toList, .word "FROM".toList] := rfl
  have htable := (hfrom.append (reads_table s.table)).append rfl (reads_alias s.child).after_blank
  exact tokens_of_reads htable

/-- A bound on a count of related rows is one comparison. -/
theorem countRows_comparison (scope : Scope) (comparator : CountComparator) (number : Nat) :
    ReadsAs IsComparison (Condition.countRows scope comparator number).text := by
  obtain ⟨source, hsource, hbalanced⟩ := source_balanced scope
  have hselect : Closes "(SELECT COUNT(*)".toList [.sign '(', .word "SELECT".toList,
    .word "COUNT".toList, .sign '(', .sign '*', .sign ')'] := rfl
  have hclose : Closes ") ".toList [.sign ')'] := rfl
  obtain ⟨signs, hsigns, hcount⟩ : ∃ ts, Closes (comparatorText comparator) ts ∧ Whole ts := by
    cases comparator with
    | atLeast => exact ⟨[.sign '>', .sign '='], rfl, rfl⟩
    | atMost => exact ⟨[.sign '<', .sign '='], rfl, rfl⟩
    | exactly => exact ⟨[.sign '='], rfl, rfl⟩
  have hrows := (hselect.append hsource).append_closes rfl hclose
  have hreads := (hrows.append_closes hsigns).append (reads_bare number).after_blank
  refine ⟨_, hreads, ⟨_, _, rfl, rfl, fun _ => rfl⟩, ?_⟩
  have hcountStar : Balanced [.word "SELECT".toList, .word "COUNT".toList, .sign '(', .sign '*',
    .sign ')'] := rfl
  have hinner : Balanced _ := hcountStar.append hbalanced
  have hwhole := (hinner.whole.append hcount).append (whole_bare number)
  simpa using hwhole

end Records.Sql
