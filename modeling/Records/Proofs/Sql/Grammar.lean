import Records.Proofs.Sql.Token

/-!
# The grammar of conditions

A condition is a disjunction of conjunctions of factors: `OR` binds weaker than `AND`, and `AND`
weaker than `NOT`.  A factor is a negated factor, a condition in parentheses, an `EXISTS` over a
select with a condition of its own, or a comparison, which is whatever stands before the next
`AND`, `OR` or end of the condition outside its own parentheses.  Keywords are read in any case;
words between delimiters are never keywords.

`IsFactor`, `IsConjunction` and `IsDisjunction` say that tokens are read as such a phrase, and with
which truth value, in front of whatever may follow one.
-/

set_option autoImplicit false

namespace Records.Sql

/-- The words that give a condition its structure. -/
inductive Keyword where
  | and
  | or
  | not
  | existence
  | selection
  | restriction
  | order
  | limit
deriving DecidableEq, Repr

namespace Keyword

def text : Keyword → List Char
  | .and => "AND".toList
  | .or => "OR".toList
  | .not => "NOT".toList
  | .existence => "EXISTS".toList
  | .selection => "SELECT".toList
  | .restriction => "WHERE".toList
  | .order => "ORDER".toList
  | .limit => "LIMIT".toList

def all : List Keyword :=
  [.and, .or, .not, .existence, .selection, .restriction, .order, .limit]

end Keyword

namespace Token

/-- The keyword that a token is. -/
def keyword? : Token → Option Keyword
  | .word text => Keyword.all.find? fun k => k.text = text.map Char.toUpper
  | _ => none

/-- The depth of parentheses after a token. -/
def deepen (depth : Nat) (t : Token) : Nat :=
  if t = .sign '(' then depth + 1 else if t = .sign ')' then depth - 1 else depth

/-- Whether a condition ends before a token. -/
def endsDisjunction (t : Token) : Bool :=
  t = .sign ')' || t.keyword? = some .order || t.keyword? = some .limit

/-- Whether a conjunction ends before a token. -/
def endsConjunction (t : Token) : Bool := t.endsDisjunction || t.keyword? = some .or

/-- Whether a comparison ends before a token. -/
def endsComparison (t : Token) : Bool := t.endsConjunction || t.keyword? = some .and

/-- Whether a token begins the condition of a select. -/
def isRestriction (t : Token) : Bool := t.keyword? = some .restriction

end Token

/-- The tokens before the first one outside parentheses that stops, and the others. -/
def cut (stops : Token → Bool) : Nat → List Token → List Token × List Token
  | _, [] => ([], [])
  | depth, t :: ts =>
    if depth = 0 && stops t then ([], t :: ts)
    else (t :: (cut stops (t.deepen depth) ts).1, (cut stops (t.deepen depth) ts).2)

/-- What follows a keyword. -/
def expect (k : Keyword) : List Token → Option (List Token)
  | [] => none
  | t :: ts => if t.keyword? = some k then some ts else none

/-- What follows a sign. -/
def expectSign (c : Char) : List Token → Option (List Token)
  | [] => none
  | t :: ts => if t = .sign c then some ts else none

/-- A condition as a tree. -/
inductive Expr where
  /-- The condition of a statement that has none. -/
  | always
  | comparison (ts : List Token)
  | not (e : Expr)
  | and (e f : Expr)
  | or (e f : Expr)
  /-- Some row of a select satisfies a condition. -/
  | existsRow (source : List Token) (condition : Expr)
deriving Repr

/-- The comparison at the beginning of some tokens. -/
def comparison (ts : List Token) : Option (Expr × List Token) :=
  if (cut Token.endsComparison 0 ts).1.isEmpty then none
  else some (.comparison (cut Token.endsComparison 0 ts).1, (cut Token.endsComparison 0 ts).2)

mutual

/-- The disjunction at the beginning of some tokens. -/
def disjunction : Nat → List Token → Option (Expr × List Token)
  | 0, _ => none
  | fuel + 1, ts => do
    let (first, ts) ← conjunction fuel ts
    match expect .or ts with
    | none => return (first, ts)
    | some ts => do
      let (others, ts) ← disjunction fuel ts
      return (.or first others, ts)

/-- The conjunction at the beginning of some tokens. -/
def conjunction : Nat → List Token → Option (Expr × List Token)
  | 0, _ => none
  | fuel + 1, ts => do
    let (first, ts) ← factor fuel ts
    match expect .and ts with
    | none => return (first, ts)
    | some ts => do
      let (others, ts) ← conjunction fuel ts
      return (.and first others, ts)

/-- The factor at the beginning of some tokens. -/
def factor : Nat → List Token → Option (Expr × List Token)
  | 0, _ => none
  | fuel + 1, ts =>
    match expect .not ts with
    | some ts => do
      let (e, ts) ← factor fuel ts
      return (.not e, ts)
    | none =>
      match expect .existence ts with
      | some ts => do
        let ts ← expectSign '(' ts
        let ts ← expect .selection ts
        let (source, ts) := cut Token.isRestriction 0 ts
        let ts ← expect .restriction ts
        let (e, ts) ← disjunction fuel ts
        let ts ← expectSign ')' ts
        return (.existsRow source e, ts)
      | none =>
        match expectSign '(' ts with
        | none => comparison ts
        | some inner =>
          if (expect .selection inner).isSome then comparison ts
          else do
            let (e, ts) ← disjunction fuel inner
            let ts ← expectSign ')' ts
            return (e, ts)

end

/-- The condition of a select: what stands after its `WHERE`, up to an order, an extent or the
end. -/
def conditionOf (ts : List Token) : Option Expr :=
  match expect .restriction (cut Token.isRestriction 0 ts).2 with
  | none => some .always
  | some ts =>
    match disjunction (3 * ts.length + 2) ts with
    | none => none
    | some (e, rest) => if rest.head?.all Token.endsDisjunction then some e else none

/-- What comparisons and selects stand for, on rows of some kind. -/
structure Interpretation (ρ : Type) where
  /-- Whether a comparison holds on a row. -/
  holds : ρ → List Token → Bool
  /-- The rows that a select goes through, seen from a row. -/
  rows : List Token → ρ → List ρ

variable {ρ : Type}

/-- The truth value of a condition on a row. -/
def Expr.value (I : Interpretation ρ) : Expr → ρ → Bool
  | .always, _ => true
  | .comparison ts, row => I.holds row ts
  | .not e, row => !e.value I row
  | .and e f, row => e.value I row && f.value I row
  | .or e f, row => e.value I row || f.value I row
  | .existsRow source condition, row => (I.rows source row).any fun other => condition.value I other

/-- The depth of parentheses after tokens none of which stops. -/
def depthAfter (stops : Token → Bool) : Nat → List Token → Option Nat
  | depth, [] => some depth
  | depth, t :: ts => if depth = 0 && stops t then none else depthAfter stops (t.deepen depth) ts

/-- The depth after two runs of tokens is that after the second, begun where the first ends. -/
theorem depthAfter_append (stops : Token → Bool) (depth : Nat) (ts us : List Token) :
    depthAfter stops depth (ts ++ us) =
      (depthAfter stops depth ts).bind fun after => depthAfter stops after us := by
  induction ts generalizing depth with
  | nil => rfl
  | cons t rest ih =>
    rw [List.cons_append, depthAfter, depthAfter]
    split
    · rfl
    · exact ih _

/-- Tokens that close their parentheses, and none of which stops outside them. -/
def Unstopped (stops : Token → Bool) (ts : List Token) : Prop := depthAfter stops 0 ts = some 0

/-- Tokens in which no comparison ends. -/
abbrev Whole : List Token → Prop := Unstopped Token.endsComparison

/-- Inside parentheses nothing else stops. -/
theorem depthAfter_succ {stops : Token → Bool} (hclose : stops (.sign ')')) {ts : List Token}
    {depth after : Nat} (h : depthAfter stops depth ts = some after) (other : Token → Bool) :
    depthAfter other (depth + 1) ts = some (after + 1) := by
  induction ts generalizing depth with
  | nil =>
    cases h
    rfl
  | cons t rest ih =>
    rw [depthAfter] at h
    split at h
    · cases h
    rename_i hgo
    -- the depth is cut off at 0, but a closing sign there would have stopped
    have hdeepen : t.deepen (depth + 1) = t.deepen depth + 1 := by
      unfold Token.deepen
      split
      · rfl
      split
      · rename_i hsign
        subst hsign
        have hdepth : depth ≠ 0 := fun hzero => hgo (by simp [hzero, hclose])
        omega
      · rfl
    rw [depthAfter, if_neg (by simp), hdeepen]
    exact ih h

/-- A cut goes past tokens at which nothing stops. -/
theorem cut_append {stops : Token → Bool} {depth after : Nat} {ts : List Token}
    (h : depthAfter stops depth ts = some after) (rest : List Token) :
    cut stops depth (ts ++ rest) =
      (ts ++ (cut stops after rest).1, (cut stops after rest).2) := by
  induction ts generalizing depth with
  | nil =>
    cases h
    rfl
  | cons t ts ih =>
    rw [depthAfter] at h
    split at h
    · cases h
    rename_i hgo
    rw [List.cons_append, cut, if_neg hgo, ih h]
    rfl

/-- A cut ends at once before a token that stops, and at the end. -/
theorem cut_of_stops {stops : Token → Bool} {rest : List Token} (h : rest.head?.all stops) :
    cut stops 0 rest = ([], rest) := by
  cases rest with
  | nil => rfl
  | cons t ts => rw [cut, if_pos (by simpa using h)]

/-- A keyword is not there when what stops first is another token. -/
theorem expect_eq_none {k : Keyword} {ts : List Token} {stops : Token → Bool}
    (h : ts.head?.all stops) (hk : ∀ t, stops t → t.keyword? ≠ some k) : expect k ts = none := by
  cases ts with
  | nil => rfl
  | cons t rest => rw [expect, if_neg (hk t (by simpa using h))]

/-- What follows a keyword may be longer. -/
theorem expect_append {k : Keyword} {ts us : List Token} (h : expect k ts = some us)
    (rest : List Token) : expect k (ts ++ rest) = some (us ++ rest) := by
  cases ts with
  | nil => cases h
  | cons t others =>
    rw [expect] at h
    split at h
    · rename_i hk
      cases h
      rw [List.cons_append, expect, if_pos hk]
    · cases h

/-- No token that ends a condition is `OR`. -/
theorem keyword?_ne_or_of_endsDisjunction (t : Token) (h : t.endsDisjunction) :
    t.keyword? ≠ some .or := by
  intro hor
  simp only [Token.endsDisjunction, hor, Bool.or_eq_true, decide_eq_true_eq] at h
  rcases h with (h | h) | h
  · subst h
    cases hor
  · cases h
  · cases h

/-- No token that ends a conjunction is `AND`. -/
theorem keyword?_ne_and_of_endsConjunction (t : Token) (h : t.endsConjunction) :
    t.keyword? ≠ some .and := by
  intro hand
  simp only [Token.endsConjunction, Token.endsDisjunction, hand, Bool.or_eq_true,
    decide_eq_true_eq] at h
  rcases h with ((h | h) | h) | h
  · subst h
    cases hand
  all_goals cases h

/-- A property of the first token may be weakened. -/
theorem all_head?_imp {p q : Token → Bool} (hpq : ∀ t, p t → q t) {ts : List Token}
    (h : ts.head?.all p) : ts.head?.all q := by
  cases ts with
  | nil => rfl
  | cons t rest => exact hpq t h

/-- What ends a condition ends a conjunction in it. -/
theorem endsConjunction_of_endsDisjunction (t : Token) (h : t.endsDisjunction) :
    t.endsConjunction := by
  simp [Token.endsConjunction, h]

/-- What ends a conjunction ends a comparison in it. -/
theorem endsComparison_of_endsConjunction (t : Token) (h : t.endsConjunction) :
    t.endsComparison := by
  simp [Token.endsComparison, h]

/-- Tokens that do not begin with `SELECT`. -/
def Opens (ts : List Token) : Prop :=
  ∃ t rest, ts = t :: rest ∧ t.keyword? ≠ some .selection

/-- Tokens that are read as one factor, with its truth value. -/
structure IsFactor (I : Interpretation ρ) (ts : List Token) (value : ρ → Bool) : Prop where
  opens : Opens ts
  reads : ∃ e : Expr, e.value I = value ∧ ∀ fuel rest, rest.head?.all Token.endsComparison →
    3 * ts.length ≤ fuel → factor fuel (ts ++ rest) = some (e, rest)

/-- Tokens that are read as one conjunction, with its truth value. -/
structure IsConjunction (I : Interpretation ρ) (ts : List Token) (value : ρ → Bool) : Prop where
  opens : Opens ts
  reads : ∃ e : Expr, e.value I = value ∧ ∀ fuel rest, rest.head?.all Token.endsConjunction →
    3 * ts.length + 1 ≤ fuel → conjunction fuel (ts ++ rest) = some (e, rest)

/-- Tokens that are read as one disjunction, with its truth value. -/
structure IsDisjunction (I : Interpretation ρ) (ts : List Token) (value : ρ → Bool) : Prop where
  opens : Opens ts
  reads : ∃ e : Expr, e.value I = value ∧ ∀ fuel rest, rest.head?.all Token.endsDisjunction →
    3 * ts.length + 2 ≤ fuel → disjunction fuel (ts ++ rest) = some (e, rest)

/-- Tokens that open a condition do so with anything behind them. -/
theorem Opens.append {ts : List Token} (h : Opens ts) (us : List Token) : Opens (ts ++ us) := by
  obtain ⟨t, rest, rfl, ht⟩ := h
  exact ⟨t, rest ++ us, rfl, ht⟩

/-- Tokens that open a condition are no select. -/
theorem Opens.expect_selection {ts : List Token} (h : Opens ts) (us : List Token) :
    expect .selection (ts ++ us) = none := by
  obtain ⟨t, rest, rfl, ht⟩ := h
  rw [List.cons_append, expect, if_neg ht]

section

variable {I : Interpretation ρ} {ts us : List Token} {u v : ρ → Bool}

/-- A factor alone is a conjunction. -/
theorem IsFactor.conjunction (h : IsFactor I ts u) : IsConjunction I ts u := by
  obtain ⟨hopens, e, he, hreads⟩ := h
  refine ⟨hopens, e, he, ?_⟩
  intro fuel rest hrest hfuel
  obtain ⟨fuel, rfl⟩ : ∃ less, fuel = less + 1 := ⟨fuel - 1, by omega⟩
  have hfactor :=
    hreads fuel rest (all_head?_imp endsComparison_of_endsConjunction hrest) (by omega)
  have hand : expect .and rest = none := expect_eq_none hrest keyword?_ne_and_of_endsConjunction
  simp [Sql.conjunction, hfactor, hand]

/-- A conjunction alone is a disjunction. -/
theorem IsConjunction.disjunction (h : IsConjunction I ts u) : IsDisjunction I ts u := by
  obtain ⟨hopens, e, he, hreads⟩ := h
  refine ⟨hopens, e, he, ?_⟩
  intro fuel rest hrest hfuel
  obtain ⟨fuel, rfl⟩ : ∃ less, fuel = less + 1 := ⟨fuel - 1, by omega⟩
  have hconjunction :=
    hreads fuel rest (all_head?_imp endsConjunction_of_endsDisjunction hrest) (by omega)
  have hor : expect .or rest = none := expect_eq_none hrest keyword?_ne_or_of_endsDisjunction
  simp [Sql.disjunction, hconjunction, hor]

/-- A factor, `AND` and a conjunction are a conjunction, and both have to hold. -/
theorem IsFactor.and (h : IsFactor I ts u) (hothers : IsConjunction I us v) :
    IsConjunction I (ts ++ .word "AND".toList :: us) fun row => u row && v row := by
  obtain ⟨hopens, e, rfl, hreads⟩ := h
  obtain ⟨_, f, rfl, hothers⟩ := hothers
  refine ⟨hopens.append _, .and e f, rfl, ?_⟩
  intro fuel rest hrest hfuel
  rw [List.length_append, List.length_cons] at hfuel
  obtain ⟨fuel, rfl⟩ : ∃ less, fuel = less + 1 := ⟨fuel - 1, by omega⟩
  have hfactor := hreads fuel (.word "AND".toList :: (us ++ rest)) rfl (by omega)
  have hconjunction := hothers fuel rest hrest (by omega)
  have hand : expect .and (.word "AND".toList :: (us ++ rest)) = some (us ++ rest) := rfl
  simp only [List.append_assoc, List.cons_append, Sql.conjunction, hfactor, Option.bind_eq_bind,
    Option.bind_some, hand, hconjunction]
  rfl

/-- A conjunction, `OR` and a disjunction are a disjunction, and one has to hold. -/
theorem IsConjunction.or (h : IsConjunction I ts u) (hothers : IsDisjunction I us v) :
    IsDisjunction I (ts ++ .word "OR".toList :: us) fun row => u row || v row := by
  obtain ⟨hopens, e, rfl, hreads⟩ := h
  obtain ⟨_, f, rfl, hothers⟩ := hothers
  refine ⟨hopens.append _, .or e f, rfl, ?_⟩
  intro fuel rest hrest hfuel
  rw [List.length_append, List.length_cons] at hfuel
  obtain ⟨fuel, rfl⟩ : ∃ less, fuel = less + 1 := ⟨fuel - 1, by omega⟩
  have hconjunction := hreads fuel (.word "OR".toList :: (us ++ rest)) rfl (by omega)
  have hdisjunction := hothers fuel rest hrest (by omega)
  have hor : expect .or (.word "OR".toList :: (us ++ rest)) = some (us ++ rest) := rfl
  simp only [List.append_assoc, List.cons_append, Sql.disjunction, hconjunction,
    Option.bind_eq_bind, Option.bind_some, hor, hdisjunction]
  rfl

/-- A disjunction in parentheses is a factor. -/
theorem IsDisjunction.parenthesized (h : IsDisjunction I ts u) :
    IsFactor I (.sign '(' :: (ts ++ [.sign ')'])) u := by
  obtain ⟨hopens, e, rfl, hreads⟩ := h
  refine ⟨⟨_, _, rfl, by simp [Token.keyword?]⟩, e, rfl, ?_⟩
  intro fuel rest hrest hfuel
  rw [List.length_cons, List.length_append, List.length_singleton] at hfuel
  obtain ⟨fuel, rfl⟩ : ∃ less, fuel = less + 1 := ⟨fuel - 1, by omega⟩
  have hinner := hreads fuel (.sign ')' :: rest) rfl (by omega)
  have hselect := hopens.expect_selection (.sign ')' :: rest)
  have hnot : expect .not (.sign '(' :: (ts ++ .sign ')' :: rest)) = none := rfl
  have hexists : expect .existence (.sign '(' :: (ts ++ .sign ')' :: rest)) = none := rfl
  have hopen : expectSign '(' (.sign '(' :: (ts ++ .sign ')' :: rest)) =
      some (ts ++ .sign ')' :: rest) := rfl
  have hclose : expectSign ')' (.sign ')' :: rest) = some rest := rfl
  simp only [List.cons_append, List.append_assoc, List.nil_append, Sql.factor, hnot, hexists, hopen,
    hselect, hinner]
  rfl

/-- A factor behind `NOT` is a factor that holds where the other does not. -/
theorem IsFactor.not (h : IsFactor I ts u) :
    IsFactor I (.word "NOT".toList :: ts) fun row => !u row := by
  obtain ⟨hopens, e, rfl, hreads⟩ := h
  refine ⟨⟨_, _, rfl, by decide⟩, .not e, rfl, ?_⟩
  intro fuel rest hrest hfuel
  rw [List.length_cons] at hfuel
  obtain ⟨fuel, rfl⟩ : ∃ less, fuel = less + 1 := ⟨fuel - 1, by omega⟩
  have hfactor := hreads fuel rest hrest (by omega)
  have hnot : expect .not (.word "NOT".toList :: (ts ++ rest)) = some (ts ++ rest) := rfl
  simp only [List.cons_append, Sql.factor, hnot, hfactor]
  rfl

/-- A test for existence is a factor, which holds when the condition does on some row of the select.
-/
theorem IsDisjunction.existsRow {source : List Token}
    (hsource : Unstopped Token.isRestriction source) (h : IsDisjunction I ts u) :
    IsFactor I (.word "EXISTS".toList :: .sign '(' :: .word "SELECT".toList ::
      (source ++ .word "WHERE".toList :: (ts ++ [.sign ')'])))
      fun row => (I.rows source row).any u := by
  obtain ⟨_, e, rfl, hreads⟩ := h
  refine ⟨⟨_, _, rfl, by decide⟩, .existsRow source e, rfl, ?_⟩
  intro fuel rest hrest hfuel
  simp only [List.length_cons, List.length_append, List.length_nil] at hfuel
  obtain ⟨fuel, rfl⟩ : ∃ less, fuel = less + 1 := ⟨fuel - 1, by omega⟩
  have hcut := cut_append hsource (.word "WHERE".toList :: (ts ++ .sign ')' :: rest))
  have hstop : cut Token.isRestriction 0 (.word "WHERE".toList :: (ts ++ .sign ')' :: rest)) =
      ([], .word "WHERE".toList :: (ts ++ .sign ')' :: rest)) := cut_of_stops rfl
  rw [hstop, List.append_nil] at hcut
  have hinner := hreads fuel (.sign ')' :: rest) rfl (by omega)
  have hnot : ∀ us, expect .not (.word "EXISTS".toList :: us) = none := fun _ => rfl
  have hexists : ∀ us, expect .existence (.word "EXISTS".toList :: us) = some us := fun _ => rfl
  have hopen : ∀ us, expectSign '(' (.sign '(' :: us) = some us := fun _ => rfl
  have hselect : ∀ us, expect .selection (.word "SELECT".toList :: us) = some us := fun _ => rfl
  have hwhere : ∀ us, expect .restriction (.word "WHERE".toList :: us) = some us := fun _ => rfl
  simp only [List.cons_append, List.append_assoc, List.nil_append, Sql.factor, hnot, hexists, hopen,
    hselect, hcut, hwhere, hinner, Option.bind_eq_bind, Option.bind_some]
  rfl

/-- Tokens that are read as one comparison. -/
structure IsComparison (ts : List Token) : Prop where
  opens : ∃ t rest, ts = t :: rest ∧ t.keyword? = none ∧
    (t = .sign '(' → (expect .selection rest).isSome)
  whole : Whole ts

/-- A comparison is a factor, with the truth value that it is given. -/
theorem IsComparison.factor (h : IsComparison ts) : IsFactor I ts fun row => I.holds row ts := by
  obtain ⟨⟨t, tail, rfl, hkeyword, hselect⟩, hwhole⟩ := h
  refine ⟨⟨t, tail, rfl, by simp [hkeyword]⟩, .comparison (t :: tail), rfl, ?_⟩
  intro fuel rest hrest hfuel
  rw [List.length_cons] at hfuel
  obtain ⟨fuel, rfl⟩ : ∃ less, fuel = less + 1 := ⟨fuel - 1, by omega⟩
  have hcut := cut_append hwhole rest
  rw [cut_of_stops hrest, List.append_nil] at hcut
  have hcomparison : comparison (t :: (tail ++ rest)) = some (.comparison (t :: tail), rest) := by
    rw [← List.cons_append, comparison, hcut]
    rfl
  have hnot : expect .not (t :: (tail ++ rest)) = none := by simp [expect, hkeyword]
  have hexists : expect .existence (t :: (tail ++ rest)) = none := by simp [expect, hkeyword]
  rw [List.cons_append, Sql.factor, hnot, hexists]
  by_cases hopen : t = .sign '('
  · obtain ⟨inner, hinner⟩ := Option.isSome_iff_exists.mp (hselect hopen)
    simp only [expectSign, if_pos hopen, expect_append hinner, Option.isSome_some, if_true,
      hcomparison]
  · simp only [expectSign, if_neg hopen, hcomparison]

end

end Records.Sql
