import Records.Proofs.Sql.Steps

/-!
# The aliases of a statement

Every select of a statement has an alias of its own, and every column is qualified by the alias of
the row that it is about (`aliases_are_not_captured`): `main` for the rows of the statement, and for
related rows the alias of the select that goes through them, which is tied to the row around it.

Aliases are handed out in turn (`Takes`), so they are all different.  A condition follows its
predicate (`Renders`), from which follows that no column stands outside the select that
introduces its alias (`Condition.InScope`).
-/

set_option autoImplicit false

namespace Records.Sql

/-! ## Aliases in turn -/

mutual

/-- The aliases that a condition introduces, in the order of its text. -/
def Condition.aliases : Condition → List Alias
  | .isNull _ _ => []
  | .equals _ _ _ => []
  | .member _ _ _ => []
  | .constant _ => []
  | .day _ _ _ => []
  | .like _ _ => []
  | .existsRow _ scope inner => scope.child :: chainAliases inner
  | .countRows scope _ _ => [scope.child]
  | .group inner => chainAliases inner

/-- The aliases that some conditions introduce, in the order of their text. -/
def chainAliases : List (Joiner × Condition) → List Alias
  | [] => []
  | (_, condition) :: rest => condition.aliases ++ chainAliases rest

end

/-- Aliases that are the next ones in turn, from some bindings to others. -/
def Takes (aliases : List Alias) (s s' : Bindings) : Prop :=
  ∃ count, s'.aliases = s.aliases + count ∧
    aliases = (List.range' (s.aliases + 1) count).map Alias.nested

namespace Takes

variable {as bs : List Alias} {s t s' : Bindings}

/-- Steps that keep the count of aliases take none. -/
theorem none (h : s'.aliases = s.aliases) : Takes [] s s' := ⟨0, h, rfl⟩

/-- Aliases taken one after another are taken together. -/
theorem append (has : Takes as s t) (hbs : Takes bs t s') : Takes (as ++ bs) s s' := by
  obtain ⟨count, ht, rfl⟩ := has
  obtain ⟨others, hs', rfl⟩ := hbs
  refine ⟨count + others, by rw [hs', ht, Nat.add_assoc], ?_⟩
  rw [ht, ← List.map_append, Nat.add_right_comm, List.range'_append_1]

/-- A select takes its alias before the selects in it. -/
theorem select (has : Takes as s.aliased s') : Takes (.nested (s.aliases + 1) :: as) s s' := by
  have hone : Takes [.nested (s.aliases + 1)] s s.aliased := ⟨1, rfl, rfl⟩
  exact hone.append has

end Takes

section

variable {model : Model} {r : Resource} {owner : Alias} {s s' : Bindings}

/-- A test of a column takes no alias. -/
theorem test_takes {column : ColumnRef} {condition : Condition}
    (h : TestBuilt r column s condition s') : Takes condition.aliases s s' := by
  cases h <;> exact Takes.none rfl

/-- The conditions of a clause take their aliases in the order of its entries. -/
theorem chain_takes {clause : Clause}
    (h : ∀ entry ∈ clause, ∀ {s s' condition},
      predicateCondition model r owner entry.2 s = .ok (condition, s') →
        Takes condition.aliases s s')
    {conditions : List (Joiner × Condition)}
    (hconditions : clauseConditions model r owner clause s = .ok (conditions, s')) :
    Takes (chainAliases conditions) s s' := by
  induction clause generalizing s conditions with
  | nil =>
    cases hconditions
    exact Takes.none rfl
  | cons entry rest ih =>
    obtain ⟨joiner, predicate⟩ := entry
    obtain ⟨hentry, hrest⟩ := List.forall_mem_cons.mp h
    obtain ⟨first, t, others, hfirst, hothers, rfl⟩ := entry_built hconditions
    exact (hentry hfirst).append (ih hrest hothers)

/-- The selects in the condition of a predicate take the next aliases in turn. -/
theorem predicate_takes (predicate : Predicate) {condition : Condition}
    (h : predicateCondition model r owner predicate s = .ok (condition, s')) :
    Takes condition.aliases s s' := by
  induction predicate using Predicate.induct generalizing r owner s s' condition with
  | condition column test => exact test_takes (testCondition_built h)
  | date column bound day =>
    cases h
    exact Takes.none rfl
  | contains column term =>
    cases h
    exact Takes.none rfl
  | related name negated clause ih =>
    obtain ⟨relation, target, inner, _, hinner, rfl⟩ := related_built h
    exact Takes.select (chain_takes (fun entry hentry => ih entry hentry) hinner)
  | count name comparator n =>
    obtain ⟨relation, target, _, rfl, rfl⟩ := count_built h
    exact Takes.select (Takes.none rfl)
  | group clause ih =>
    obtain ⟨inner, hinner, rfl⟩ := group_built h
    exact chain_takes (fun entry hentry => ih entry hentry) hinner

/-- Each relation that is shown takes the next alias for its rows. -/
theorem embedded_takes {names : List String} {embedded : List Embedded}
    (h : embeddedOf model r names s = .ok (embedded, s')) :
    Takes (embedded.map fun e => e.scope.child) s s' := by
  induction names generalizing s embedded with
  | nil =>
    cases h
    exact Takes.none rfl
  | cons name rest ih =>
    obtain ⟨relation, target, others, _, hothers, rfl⟩ := embedded_built h
    exact Takes.select (ih hothers)

end

/-- Numbers with the same numeral are the same. -/
theorem numeral_injective : Function.Injective numeral := by
  intro m n h
  have hvalue := Numeral.valueFrom_ofNat m
  rw [show Numeral.ofNat m = Numeral.ofNat n from h, Numeral.valueFrom_ofNat] at hvalue
  exact (Option.some.inj hvalue).symm

/-- Different aliases are written differently. -/
theorem Alias.text_injective : Function.Injective Alias.text := by
  intro a b h
  cases a with
  | main =>
    cases b with
    | main => rfl
    | nested n => cases h
  | nested m =>
    cases b with
    | main => cases h
    | nested n => exact congrArg Alias.nested (numeral_injective (List.cons.inj h).2)

/-- Aliases taken one after another have different texts, none of which is `main`. -/
theorem Takes.nodup {as : List Alias} {s s' : Bindings} (h : Takes as s s') :
    ((Alias.main :: as).map Alias.text).Nodup := by
  obtain ⟨count, _, rfl⟩ := h
  refine List.Nodup.map Alias.text_injective (List.nodup_cons.mpr ⟨?_, ?_⟩)
  · intro hmain
    obtain ⟨number, _, hnumber⟩ := List.mem_map.mp hmain
    cases hnumber
  · exact List.Nodup.map (fun m n hmn => Alias.nested.inj hmn) List.nodup_range'

/-! ## Columns in scope -/

/-- The columns in the text that ties related rows to their row. -/
def Scope.columns (s : Scope) : List ColumnRef :=
  ⟨s.child, s.foreignKey⟩ :: ⟨s.parent, s.localKey⟩ ::
    s.softDeleteColumn.toList.map fun column => ⟨s.child, column⟩

/-- Every column that ties related rows belongs to a table in sight or to their own. -/
def Scope.InScope (visible : List Alias) (s : Scope) : Prop :=
  ∀ column ∈ s.columns, column.owner ∈ s.child :: visible

mutual

/-- Every column in a condition belongs to a table in sight, or to that of a select around it. -/
def Condition.InScope (visible : List Alias) : Condition → Prop
  | .isNull column _ => column.owner ∈ visible
  | .equals column _ _ => column.owner ∈ visible
  | .member column _ _ => column.owner ∈ visible
  | .constant _ => True
  | .day column _ _ => column.owner ∈ visible
  | .like column _ => column.owner ∈ visible
  | .existsRow _ scope inner =>
    scope.InScope visible ∧ ChainInScope (scope.child :: visible) inner
  | .countRows scope _ _ => scope.InScope visible
  | .group inner => ChainInScope visible inner

/-- Every column in some conditions belongs to a table in sight, or to that of a select around
it. -/
def ChainInScope (visible : List Alias) : List (Joiner × Condition) → Prop
  | [] => True
  | (_, condition) :: rest => condition.InScope visible ∧ ChainInScope visible rest

end

/-! ## Conditions that follow their predicates -/

/-- A test of one column, or of none. -/
inductive Condition.IsTest (column : ColumnRef) : Condition → Prop where
  | isNull (negated : Bool) : IsTest column (.isNull column negated)
  | equals (negated : Bool) (value : Placeholder) : IsTest column (.equals column negated value)
  | member (negated : Bool) (values : List Placeholder) :
    IsTest column (.member column negated values)
  | constant (holds : Bool) : IsTest column (.constant holds)

/-- The select of related rows that a relation leads to, from the row that an alias stands for. -/
structure Scope.Ties (s : Scope) (relation : Relation) (target : Resource) (around : Alias) :
    Prop where
  table : s.table = tableOf target
  parent : s.parent = around
  /-- Its own foreign key equals the local key of the row around it. -/
  correlation : s.correlation = ColumnRef.text ⟨s.child, relation.foreignKey⟩ ++ " = ".toList ++
    ColumnRef.text ⟨around, relation.localKey⟩
  /-- The trash mark is tested on its own rows. -/
  mark : s.mark = target.softDeleteColumn.map fun column => (⟨s.child, column⟩, false)

mutual

/-- A condition that follows a predicate: every test is on the rows that an alias stands for, and
every select is tied to them, with its own clause about its own rows. -/
def Renders (model : Model) (r : Resource) (owner : Alias) :
    Predicate → Condition → Prop
  | .condition column _, condition => condition.IsTest ⟨owner, column⟩
  | .date column bound _, condition => ∃ number, condition = .day ⟨owner, column⟩ bound number
  | .contains column _, condition => ∃ number, condition = .like ⟨owner, column⟩ number
  | .related name negated clause, condition =>
    ∃ relation target scope inner, model.related r name = .ok (relation, target) ∧
      scope.Ties relation target owner ∧ condition = .existsRow negated scope inner ∧
      ChainRenders model target scope.child clause inner
  | .count name comparator _, condition =>
    ∃ relation target scope number, model.related r name = .ok (relation, target) ∧
      scope.Ties relation target owner ∧ condition = .countRows scope comparator number
  | .group clause, condition =>
    ∃ inner, condition = .group inner ∧ ChainRenders model r owner clause inner

/-- Conditions that follow the entries of a clause, one for each and under its joiner. -/
def ChainRenders (model : Model) (r : Resource) (owner : Alias) :
    List (Joiner × Predicate) → List (Joiner × Condition) → Prop
  | [], conditions => conditions = []
  | (joiner, predicate) :: rest, conditions =>
    ∃ first others, conditions = (joiner, first) :: others ∧
      Renders model r owner predicate first ∧
      ChainRenders model r owner rest others

end

/-- A select that is shown with each row and follows the name of a relation. -/
def Embedded.Follows (model : Model) (r : Resource) (name : String) (e : Embedded) : Prop :=
  ∃ relation target, model.related r name = .ok (relation, target) ∧ e.name = name ∧
    e.many = relation.isMany ∧ e.scope.Ties relation target .main

section

variable {model : Model} {r target : Resource} {owner : Alias} {s s' : Bindings}

/-- The scope that a relation opens ties its rows to the row around them. -/
theorem scopeOf_ties (relation : Relation) (target : Resource) (parent child : Alias) :
    (scopeOf relation target parent child).Ties relation target parent :=
  ⟨rfl, rfl, rfl, rfl⟩

/-- The condition of a test is on the column tested. -/
theorem test_isTest {column : ColumnRef} {condition : Condition}
    (h : TestBuilt r column s condition s') : condition.IsTest column := by
  cases h with
  | isNull negated => exact .isNull negated
  | constant holds => exact .constant holds
  | equals negated value => exact .equals negated _
  | member negated values => exact .member negated _

/-- The conditions of a clause follow its entries one by one. -/
theorem chain_renders {clause : Clause}
    (h : ∀ entry ∈ clause, ∀ {s s' condition},
      predicateCondition model r owner entry.2 s = .ok (condition, s') →
        Renders model r owner entry.2 condition)
    {conditions : List (Joiner × Condition)}
    (hconditions : clauseConditions model r owner clause s = .ok (conditions, s')) :
    ChainRenders model r owner clause conditions := by
  induction clause generalizing s conditions with
  | nil =>
    cases hconditions
    rfl
  | cons entry rest ih =>
    obtain ⟨joiner, predicate⟩ := entry
    obtain ⟨hentry, hrest⟩ := List.forall_mem_cons.mp h
    obtain ⟨first, t, others, hfirst, hothers, rfl⟩ := entry_built hconditions
    exact ⟨first, others, rfl, hentry hfirst, ih hrest hothers⟩

/-- The condition that is built for a predicate follows it. -/
theorem predicate_renders (predicate : Predicate) {condition : Condition}
    (h : predicateCondition model r owner predicate s = .ok (condition, s')) :
    Renders model r owner predicate condition := by
  induction predicate using Predicate.induct generalizing r owner s s' condition with
  | condition column test => exact test_isTest (testCondition_built h)
  | date column bound day =>
    cases h
    exact ⟨_, rfl⟩
  | contains column term =>
    cases h
    exact ⟨_, rfl⟩
  | related name negated clause ih =>
    obtain ⟨relation, target, inner, hrelated, hinner, rfl⟩ := related_built h
    exact ⟨relation, target, _, inner, hrelated, scopeOf_ties relation target owner _, rfl,
      chain_renders (fun entry hentry => ih entry hentry) hinner⟩
  | count name comparator n =>
    obtain ⟨relation, target, hrelated, rfl, _⟩ := count_built h
    exact ⟨relation, target, _, _, hrelated, scopeOf_ties relation target owner _, rfl⟩
  | group clause ih =>
    obtain ⟨inner, hinner, rfl⟩ := group_built h
    exact ⟨inner, rfl, chain_renders (fun entry hentry => ih entry hentry) hinner⟩

/-- The selects that are shown follow the names of the relations one by one. -/
theorem embedded_follow {names : List String} {embedded : List Embedded}
    (h : embeddedOf model r names s = .ok (embedded, s')) :
    List.Forall₂ (Embedded.Follows model r) names embedded := by
  induction names generalizing s embedded with
  | nil =>
    cases h
    exact .nil
  | cons name rest ih =>
    obtain ⟨relation, target, others, hrelated, hothers, rfl⟩ := embedded_built h
    exact .cons ⟨relation, target, hrelated, rfl, rfl, scopeOf_ties relation target .main _⟩
      (ih hothers)

/-- A select that is tied to a row in sight has only columns of tables in sight and its own. -/
theorem Scope.Ties.inScope {scope : Scope} {relation : Relation} {visible : List Alias}
    (h : scope.Ties relation target owner) (howner : owner ∈ visible) : scope.InScope visible := by
  intro column hcolumn
  simp only [Scope.columns, List.mem_cons, List.mem_map] at hcolumn
  rcases hcolumn with rfl | rfl | ⟨_, _, rfl⟩
  · exact List.mem_cons_self
  · rw [h.parent]
    exact List.mem_cons_of_mem _ howner
  · exact List.mem_cons_self

/-- A test on a column of a table in sight has only columns in sight. -/
theorem Condition.IsTest.inScope {column : ColumnRef} {condition : Condition}
    {visible : List Alias} (h : condition.IsTest column) (howner : column.owner ∈ visible) :
    condition.InScope visible := by
  cases h with
  | isNull negated => exact howner
  | equals negated value => exact howner
  | member negated values => exact howner
  | constant holds => trivial

/-- Conditions that follow a clause are in sight when each condition that follows one of its entries
is. -/
theorem ChainRenders.inScope {clause : Clause} {visible : List Alias}
    (h : ∀ entry ∈ clause, ∀ {condition},
      Renders model r owner entry.2 condition → condition.InScope visible)
    {conditions : List (Joiner × Condition)}
    (hrenders : ChainRenders model r owner clause conditions) :
    ChainInScope visible conditions := by
  induction clause generalizing conditions with
  | nil =>
    cases hrenders
    trivial
  | cons entry rest ih =>
    obtain ⟨hentry, hrest⟩ := List.forall_mem_cons.mp h
    obtain ⟨first, others, rfl, hfirst, hothers⟩ := hrenders
    exact ⟨hentry hfirst, ih hrest hothers⟩

/-- What follows a predicate on rows in sight has its columns in scope. -/
theorem Renders.inScope (predicate : Predicate) {condition : Condition} {visible : List Alias}
    (h : Renders model r owner predicate condition) (howner : owner ∈ visible) :
    condition.InScope visible := by
  induction predicate using Predicate.induct generalizing r owner condition visible with
  | condition column test => exact Condition.IsTest.inScope h howner
  | date column bound day =>
    obtain ⟨number, rfl⟩ := h
    exact howner
  | contains column term =>
    obtain ⟨number, rfl⟩ := h
    exact howner
  | related name negated clause ih =>
    obtain ⟨relation, target, scope, inner, _, hties, rfl, hinner⟩ := h
    refine ⟨hties.inScope howner, ?_⟩
    exact ChainRenders.inScope (fun entry hentry _ h => ih entry hentry h List.mem_cons_self) hinner
  | count name comparator n =>
    obtain ⟨relation, target, scope, number, _, hties, rfl⟩ := h
    exact hties.inScope howner
  | group clause ih =>
    obtain ⟨inner, rfl, hinner⟩ := h
    exact ChainRenders.inScope (fun entry hentry _ h => ih entry hentry h howner) hinner

end

/-! ## Statements -/

/-- A select of rows under the alias `main`: its restriction, and what it shows with each row. -/
structure Scoped (model : Model) (r : Resource) (query : Query) (restriction : Restriction)
    (eager : List String) (embedded : List Embedded) : Prop where
  /-- No two tables have one alias. -/
  distinct : ((Alias.main :: (chainAliases restriction.conditions ++
    embedded.map fun e => e.scope.child)).map Alias.text).Nodup
  /-- The trash mark is tested on the rows of the statement. -/
  trash : restriction.trash = markOf r query.trashed
  renders : ChainRenders model r .main query.clause restriction.conditions
  follows : List.Forall₂ (Embedded.Follows model r) eager embedded
  /-- No column stands outside the select that introduces its alias. -/
  conditions_inScope : ChainInScope [.main] restriction.conditions
  embedded_inScope : ∀ e ∈ embedded, e.scope.InScope [.main]

section

variable {model : Model} {query : Query}

/-- A restriction and selects that were built one after the other follow their query, with aliases
that differ throughout. -/
theorem scoped_of_built {r : Resource} {restriction : Restriction} {counted shown : Bindings}
    {eager : List String} {embedded : List Embedded}
    (hrestriction : restrictionOf model r query {} = .ok (restriction, counted))
    (hembedded : embeddedOf model r eager counted = .ok (embedded, shown)) :
    Scoped model r query restriction eager embedded := by
  obtain ⟨conditions, hconditions, rfl⟩ := restriction_built hrestriction
  have htakes := chain_takes (fun entry _ => predicate_takes entry.2) hconditions
  have hrenders := chain_renders (fun entry _ => predicate_renders entry.2) hconditions
  have hfollows := embedded_follow hembedded
  refine ⟨(htakes.append (embedded_takes hembedded)).nodup, rfl, hrenders, hfollows, ?_, ?_⟩
  · exact ChainRenders.inScope
      (fun entry _ _ h => Renders.inScope entry.2 h (List.mem_singleton.mpr rfl)) hrenders
  · intro e he
    obtain ⟨name, _, relation, target, _, _, _, hties⟩ :=
      Outcome.exists_of_forall₂_right hfollows he
    exact hties.inScope (List.mem_singleton.mpr rfl)

/-- In the first, page and count statements of a query no alias is captured: aliases are pairwise
different, columns stand inside the select that introduces their alias, and every select of related
rows is tied to the row around it and has its clause about its own rows. -/
theorem aliases_are_not_captured (model : Model) (query : Query) :
    (∀ first, firstOf model query = .ok first →
      ∃ r, model.requireResource query.resource = .ok r ∧
        Scoped model r query first.statement.restriction query.eager first.statement.embedded) ∧
    ∀ paging page tally, pageOf model query paging = .ok (page, tally) →
      ∃ r, model.requireResource query.resource = .ok r ∧
        Scoped model r query page.statement.restriction query.eager page.statement.embedded ∧
        Scoped model r query tally.statement.restriction [] [] := by
  constructor
  · intro first h
    obtain ⟨parts, rfl⟩ := firstOf_built h
    exact ⟨parts.resource, parts.requires, scoped_of_built parts.restricts parts.embeds⟩
  · intro paging page tally h
    obtain ⟨parts, rfl, rfl⟩ := pageOf_built h
    have hnone : embeddedOf model parts.resource [] parts.counted = .ok ([], parts.counted) := rfl
    exact ⟨parts.resource, parts.requires, scoped_of_built parts.restricts parts.embeds,
      scoped_of_built parts.restricts hnone⟩

/-- Posts with a comment whose post has another comment, of which there are some, shown with their
comments: two selects from one table meet at two depths. -/
theorem aliases_are_not_captured_journal :
    let query : Query := {
      resource := "posts"
      clause := [
        (.and, .related "comments" false
          [(.and, .contains "body" "a"),
            (.or, .related "post" true
              [(.and, .related "comments" false [(.and, .contains "body" "b")])])]),
        (.or, .group [(.and, .count "comments" .atLeast 1)])]
      eager := ["comments"] }
    ∃ first, firstOf Config.journal query = .ok first ∧
      chainAliases first.statement.restriction.conditions =
        [.nested 1, .nested 2, .nested 3, .nested 4] ∧
      (∃ r, Config.journal.requireResource query.resource = .ok r ∧
        Scoped Config.journal r query first.statement.restriction query.eager
          first.statement.embedded) ∧
      ∃ page tally, pageOf Config.journal query ⟨1, 10⟩ = .ok (page, tally) ∧
        ∃ r, Config.journal.requireResource query.resource = .ok r ∧
          Scoped Config.journal r query page.statement.restriction query.eager
            page.statement.embedded ∧
          Scoped Config.journal r query tally.statement.restriction [] [] := by
  intro query
  obtain ⟨hfirst, hpage⟩ := aliases_are_not_captured Config.journal query
  exact ⟨_, rfl, rfl, hfirst _ rfl, _, _, rfl, hpage ⟨1, 10⟩ _ _ rfl⟩

end

end Records.Sql
