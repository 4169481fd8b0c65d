import Records.Proofs.Number.Numeral
import Records.Sql.Print

/-!
# Reading a statement by tokens

A statement is read the way the database reads it: words of letters, digits, underscores and dollar
signs; identifiers between double quotes and literals between single ones, a doubled quote standing
for one of its kind; blanks, which separate; and any other character as a sign of its own.

`Reads text ts` says that a text has the tokens `ts` wherever it is followed by the end or by a
character that cannot go on with its last token, and `Closes text ts` that it has them whatever
follows.  Both compose along the text.
-/

set_option autoImplicit false

namespace Records.Sql

/-- A token of a statement. -/
inductive Token where
  | word (text : List Char)
  | name (text : List Char)
  | literal (text : List Char)
  | sign (c : Char)
deriving DecidableEq, Repr

/-- A pair of delimiters. -/
inductive Quote where
  | double
  | single
deriving DecidableEq, Repr

def Quote.char : Quote → Char
  | .double => '"'
  | .single => '\''

def Quote.token : Quote → List Char → Token
  | .double, text => .name text
  | .single, text => .literal text

def isWordChar (c : Char) : Bool := c.isAlphanum || c = '_' || c = '$'

/-- Whether a character can neither go on with a word nor with what stands between delimiters. -/
def separates (c : Char) : Bool := !isWordChar c && c ≠ '"' && c ≠ '\''

/-- Where in a token the reading of a text stands. -/
inductive Scan where
  | between
  | word (read : List Char)
  | inside (quote : Quote) (read : List Char)
  /-- After a delimiter that ends the token unless it is doubled. -/
  | closing (quote : Quote) (read : List Char)
deriving DecidableEq, Repr

namespace Scan

/-- The token that the end of the text completes; none inside delimiters. -/
def pending : Scan → Option (List Token)
  | .between => some []
  | .word read => some [.word read]
  | .inside _ _ => none
  | .closing quote read => some [quote.token read]

/-- Reads a character that does not go on with a token. -/
def start (c : Char) : List Token × Scan :=
  if isWordChar c then ([], .word [c])
  else if c = '"' then ([], .inside .double [])
  else if c = '\'' then ([], .inside .single [])
  else if c.isWhitespace then ([], .between)
  else ([.sign c], .between)

/-- Reads a character: the tokens it completes, and where the reading stands then. -/
def step : Scan → Char → List Token × Scan
  | .between, c => start c
  | .word read, c =>
    if isWordChar c then ([], .word (read ++ [c])) else (.word read :: (start c).1, (start c).2)
  | .inside quote read, c =>
    if c = quote.char then ([], .closing quote read) else ([], .inside quote (read ++ [c]))
  | .closing quote read, c =>
    if c = quote.char then ([], .inside quote (read ++ [c]))
    else (quote.token read :: (start c).1, (start c).2)

end Scan

/-- Reads a text: the tokens it completes, and where the reading stands at its end. -/
def scan (s : Scan) : List Char → List Token × Scan
  | [] => ([], s)
  | c :: rest => ((s.step c).1 ++ (scan (s.step c).2 rest).1, (scan (s.step c).2 rest).2)

/-- The tokens of a text; what an unfinished delimiter opens is left out. -/
def tokens (text : List Char) : List Token :=
  (scan .between text).1 ++ ((scan .between text).2.pending.getD [])

/-- A text that has certain tokens wherever its last token ends with it. -/
def Reads (text : List Char) (ts : List Token) : Prop :=
  ∃ out s last, scan .between text = (out, s) ∧ s.pending = some last ∧ out ++ last = ts

/-- A text that has certain tokens whatever follows. -/
def Closes (text : List Char) (ts : List Token) : Prop := scan .between text = (ts, .between)

/-- A text whose tokens have a property. -/
def ReadsAs (property : List Token → Prop) (text : List Char) : Prop :=
  ∃ ts, Reads text ts ∧ property ts

/-- Nothing, or a text that begins with a separating character. -/
def Separated (text : List Char) : Bool := text.head?.all separates

/-- Reading a text in two pieces is reading it in one. -/
theorem scan_append (s : Scan) (a b : List Char) :
    scan s (a ++ b) = ((scan s a).1 ++ (scan (scan s a).2 b).1, (scan (scan s a).2 b).2) := by
  induction a generalizing s with
  | nil => rfl
  | cons c rest ih => simp only [List.cons_append, scan, ih, List.append_assoc]

/-- A character that is no quote closes no delimiter. -/
theorem Quote.ne_char (quote : Quote) {c : Char} (hdouble : c ≠ '"') (hsingle : c ≠ '\'') :
    c ≠ quote.char := by
  cases quote with
  | double => exact hdouble
  | single => exact hsingle

/-- A separating character completes the token that is pending. -/
theorem step_of_pending {s : Scan} {last : List Token} (h : s.pending = some last) {c : Char}
    (hc : separates c) : s.step c = (last ++ (Scan.start c).1, (Scan.start c).2) := by
  simp only [separates, Bool.and_eq_true, Bool.not_eq_true', decide_eq_true_eq] at hc
  obtain ⟨⟨hword, hdouble⟩, hsingle⟩ := hc
  cases s with
  | between =>
    cases h
    rfl
  | word read =>
    cases h
    simp [Scan.step, hword]
  | inside quote read => cases h
  | closing quote read =>
    cases h
    simp [Scan.step, quote.ne_char hdouble hsingle]

/-- The tokens of a text are what it reads as. -/
theorem tokens_of_reads {text : List Char} {ts : List Token} (h : Reads text ts) :
    tokens text = ts := by
  obtain ⟨out, s, last, hscan, hlast, rfl⟩ := h
  simp [tokens, hscan, hlast]

/-- A text that has its tokens whatever follows has them when its last one ends with it. -/
theorem Closes.reads {text : List Char} {ts : List Token} (h : Closes text ts) : Reads text ts :=
  ⟨ts, .between, [], h, rfl, List.append_nil ts⟩

/-- The empty text has no tokens. -/
theorem Reads.nil : Reads [] [] := ⟨[], .between, [], rfl, rfl, rfl⟩

/-- A text whose tokens have a property reads as tokens that have it. -/
theorem ReadsAs.tokens {property : List Token → Prop} {text : List Char}
    (h : ReadsAs property text) : Reads text (tokens text) ∧ property (tokens text) := by
  obtain ⟨ts, hreads, hproperty⟩ := h
  rw [tokens_of_reads hreads]
  exact ⟨hreads, hproperty⟩

section

variable {a b : List Char} {ts us : List Token}

/-- Texts that have their tokens whatever follows have them together. -/
theorem Closes.append_closes (ha : Closes a ts) (hb : Closes b us) :
    Closes (a ++ b) (ts ++ us) := by
  unfold Closes at ha hb ⊢
  rw [scan_append, ha, hb]

/-- A text that has its tokens whatever follows may be followed by any. -/
theorem Closes.append (ha : Closes a ts) (hb : Reads b us) : Reads (a ++ b) (ts ++ us) := by
  obtain ⟨out, s, last, hscan, hlast, rfl⟩ := hb
  refine ⟨ts ++ out, s, last, ?_, hlast, List.append_assoc ts out last⟩
  rw [scan_append, ha, hscan]

/-- What a text reads as is unaffected by a separated text after it. -/
theorem Reads.scan_append (ha : Reads a ts) {c : Char} {rest : List Char} (hc : separates c) :
    scan .between (a ++ c :: rest) =
      (ts ++ (scan .between (c :: rest)).1, (scan .between (c :: rest)).2) := by
  obtain ⟨out, s, last, hscan, hlast, rfl⟩ := ha
  rw [Sql.scan_append, hscan]
  have hstep := step_of_pending hlast hc
  have hstart : Scan.step .between c = Scan.start c := rfl
  simp only [scan, hstep, hstart, List.append_assoc]

/-- A text may be followed by one that begins between tokens. -/
theorem Reads.append (ha : Reads a ts) (hsep : Separated b) (hb : Reads b us) :
    Reads (a ++ b) (ts ++ us) := by
  cases b with
  | nil =>
    obtain ⟨out, s, last, hscan, hlast, rfl⟩ := hb
    cases hscan
    cases hlast
    simpa using ha
  | cons c rest =>
    obtain ⟨out, s, last, hscan, hlast, rfl⟩ := hb
    refine ⟨ts ++ out, s, last, ?_, hlast, List.append_assoc ts out last⟩
    rw [ha.scan_append hsep, hscan]

/-- A blank in front changes no token. -/
theorem Reads.after_blank (ha : Reads a ts) : Reads (' ' :: a) ts := by
  have hblank : Closes [' '] [] := rfl
  exact hblank.append ha

/-- A text may be followed by one that begins with a separating character and ends between tokens.
-/
theorem Reads.append_closes (ha : Reads a ts) (hsep : b.head?.any separates)
    (hb : Closes b us) : Closes (a ++ b) (ts ++ us) := by
  cases b with
  | nil => cases hsep
  | cons c rest =>
    unfold Closes at hb ⊢
    rw [ha.scan_append hsep, hb]

/-- What follows a text that ends between tokens is read as it is alone. -/
theorem Closes.tokens_append (ha : Closes a ts) (b : List Char) :
    tokens (a ++ b) = ts ++ tokens b := by
  rw [tokens, Sql.scan_append, show scan .between a = (ts, .between) from ha, List.append_assoc]
  rfl

/-- What follows a text, separated from it, is read as it is alone. -/
theorem Reads.tokens_append (ha : Reads a ts) (hsep : Separated b) :
    tokens (a ++ b) = ts ++ tokens b := by
  cases b with
  | nil =>
    rw [List.append_nil, tokens_of_reads ha]
    exact (List.append_nil ts).symm
  | cons c rest =>
    rw [tokens, ha.scan_append hsep, List.append_assoc]
    rfl

end

/-! ## The pieces of a statement -/

/-- The characters of a word are read on. -/
theorem scan_word (read text : List Char) (h : ∀ c ∈ text, isWordChar c) :
    scan (.word read) text = ([], .word (read ++ text)) := by
  induction text generalizing read with
  | nil => simp [scan]
  | cons c rest ih =>
    have hrest := ih (read ++ [c]) fun other hother => h other (List.mem_cons_of_mem _ hother)
    simp [scan, Scan.step, h c (by simp), hrest]

/-- The characters of a word are one token. -/
theorem reads_word {c : Char} {rest : List Char} (h : ∀ other ∈ c :: rest, isWordChar other) :
    Reads (c :: rest) [.word (c :: rest)] := by
  have hrest := scan_word [c] rest fun other hother => h other (List.mem_cons_of_mem _ hother)
  refine ⟨[], .word (c :: rest), _, ?_, rfl, rfl⟩
  simp [scan, Scan.step, Scan.start, h c (by simp), hrest]

/-- The characters of a name are read on between its delimiters, doubled quotes as one. -/
theorem scan_inside_double (read text : List Char) :
    scan (.inside .double read) (text.flatMap fun c => if c = '"' then ['"', '"'] else [c]) =
      ([], .inside .double (read ++ text)) := by
  induction text generalizing read with
  | nil => simp [scan]
  | cons c rest ih =>
    rw [List.flatMap_cons, scan_append]
    by_cases hc : c = '"'
    · subst hc
      simp [scan, Scan.step, Quote.char, ih]
    · simp [scan, Scan.step, Quote.char, hc, ih]

/-- A delimited name is read up to its closing delimiter. -/
theorem scan_quoted (name : String) :
    scan .between (quoted name) = ([], .closing .double name.toList) := by
  show scan (.inside .double []) (_ ++ ['"']) = _
  rw [scan_append, scan_inside_double]
  rfl

/-- A delimited identifier is one token, whatever characters it has. -/
theorem reads_quoted (name : String) : Reads (quoted name) [.name name.toList] :=
  ⟨[], .closing .double name.toList, _, scan_quoted name, rfl, rfl⟩

/-- A numeral is made of characters of a word. -/
theorem isWordChar_of_mem_numeral {n : Nat} {c : Char} (h : c ∈ numeral n) : isWordChar c := by
  have hdigit := Numeral.isDigit_of_mem_ofNat h
  simp [isWordChar, Char.isAlphanum, hdigit]

/-- A placeholder is one word. -/
theorem reads_bare (number : Nat) : Reads (bare number) [.word (bare number)] := by
  apply reads_word
  intro c hc
  rcases List.mem_cons.mp hc with rfl | hc
  · rfl
  · exact isWordChar_of_mem_numeral hc

/-- An alias is one word. -/
theorem reads_alias (a : Alias) : Reads a.text [.word a.text] := by
  cases a with
  | main => exact reads_word (List.all_eq_true.mp rfl)
  | nested number =>
    apply reads_word
    intro c hc
    rcases List.mem_cons.mp hc with rfl | hc
    · rfl
    · exact isWordChar_of_mem_numeral hc

def TableRef.tokens (t : TableRef) : List Token :=
  [.name t.schema.toList, .sign '.', .name t.table.toList]

def ColumnRef.tokens (c : ColumnRef) : List Token :=
  [.word c.owner.text, .sign '.', .name c.column.toList]

/-- Token lists with commas between them. -/
def listedTokens : List (List Token) → List Token
  | [] => []
  | [part] => part
  | part :: parts => part ++ .sign ',' :: listedTokens parts

/-- A dot is one sign. -/
theorem closes_dot : Closes ['.'] [.sign '.'] := rfl

/-- A closing parenthesis is one sign. -/
theorem closes_parenthesis : Closes [')'] [.sign ')'] := rfl

/-- An `AND` between blanks is one word. -/
theorem closes_and : Closes " AND ".toList [.word "AND".toList] := rfl

/-- An `OR` between blanks is one word. -/
theorem closes_or : Closes " OR ".toList [.word "OR".toList] := rfl

/-- A list has the tokens of its parts with commas between them. -/
theorem reads_listed {α : Type} {text : α → List Char} {ts : α → List Token} (l : List α)
    (h : ∀ a ∈ l, Reads (text a) (ts a)) :
    Reads (listed (l.map text)) (listedTokens (l.map ts)) := by
  have hcomma : Closes [',', ' '] [.sign ','] := rfl
  induction l with
  | nil => exact Reads.nil
  | cons a rest ih =>
    have hfirst := h a (by simp)
    cases rest with
    | nil => exact hfirst
    | cons b others =>
      have hothers := ih fun c hc => h c (List.mem_cons_of_mem _ hc)
      exact hfirst.append rfl (hcomma.append hothers)

/-- A table has its tokens. -/
theorem reads_table (t : TableRef) : Reads t.text t.tokens :=
  (reads_quoted t.schema).append rfl (closes_dot.append (reads_quoted t.table))

/-- A column has its tokens. -/
theorem reads_column (c : ColumnRef) : Reads c.text c.tokens :=
  (reads_alias c.owner).append rfl (closes_dot.append (reads_quoted c.column))

/-- Reading that does not begin with a quote is inside no delimiters. -/
theorem isSome_pending_start {c : Char} (hdouble : c ≠ '"') (hsingle : c ≠ '\'') :
    (Scan.start c).2.pending.isSome := by
  unfold Scan.start
  rw [if_neg hdouble, if_neg hsingle]
  split
  · rfl
  · split <;> rfl

/-- A character that is no quote leaves the reading where it can end. -/
theorem isSome_pending_step {s : Scan} (hs : s.pending.isSome) {c : Char} (hdouble : c ≠ '"')
    (hsingle : c ≠ '\'') : (s.step c).2.pending.isSome := by
  have hstart := isSome_pending_start hdouble hsingle
  cases s with
  | between => exact hstart
  | word read =>
    rw [Scan.step]
    split
    · rfl
    · exact hstart
  | inside quote read => cases hs
  | closing quote read =>
    rw [Scan.step, if_neg (quote.ne_char hdouble hsingle)]
    exact hstart

/-- Reading without quotes stays outside delimiters. -/
theorem isSome_pending_scan {s : Scan} (hs : s.pending.isSome) {text : List Char}
    (h : ∀ c ∈ text, c ≠ '"' ∧ c ≠ '\'') : (scan s text).2.pending.isSome := by
  induction text generalizing s with
  | nil => exact hs
  | cons c rest ih =>
    obtain ⟨⟨hdouble, hsingle⟩, hrest⟩ := List.forall_mem_cons.mp h
    exact ih (isSome_pending_step hs hdouble hsingle) hrest

/-- A text without quotes is read to its end. -/
theorem reads_of_no_quote (text : List Char) (h : ∀ c ∈ text, c ≠ '"' ∧ c ≠ '\'') :
    Reads text (tokens text) := by
  have hbetween : Scan.between.pending.isSome := rfl
  obtain ⟨last, hlast⟩ := Option.isSome_iff_exists.mp (isSome_pending_scan hbetween h)
  exact ⟨_, _, last, rfl, hlast, by rw [tokens, hlast]; rfl⟩

end Records.Sql
