import Records.Proofs.Sql.Aliases

/-!
# Correlations in the text

The text of a statement shows the ties between its selects (`selects_are_correlated`).  Every select
of related rows goes through the table of its relation under an alias of its own; its foreign key is
set equal to the local key of the row around it, its trash mark is tested on its own rows, and the
conditions inside it are spelled on its own rows (`Spells`).

What is spelled is said of texts alone, so it holds of what is printed and not of the conditions
from which it is printed.
-/

set_option autoImplicit false

namespace Records.Sql

/-- The text of the rows that a relation leads to from the row of an alias: the table of the target,
its foreign key equal to the local key of that row, and its trash aside. -/
def relatedText (relation : Relation) (target : Resource) (around child : Alias) : List Char :=
  " FROM ".toList ++ (tableOf target).text ++ ' ' :: child.text ++ " WHERE ".toList ++
    ColumnRef.text ⟨child, relation.foreignKey⟩ ++ " = ".toList ++
    ColumnRef.text ⟨around, relation.localKey⟩ ++
    match target.softDeleteColumn with
    | some column => " AND ".toList ++ ColumnRef.text ⟨child, column⟩ ++ " IS NULL".toList
    | none => []

/-- The text of a test of one column, or of none. -/
inductive SpellsTest (column : ColumnRef) : List Char → Prop
  | isNull : SpellsTest column (column.text ++ " IS NULL".toList)
  | isNotNull : SpellsTest column (column.text ++ " IS NOT NULL".toList)
  | equals (value : Placeholder) : SpellsTest column (column.text ++ " = ".toList ++ value.text)
  | differs (value : Placeholder) : SpellsTest column (column.text ++ " <> ".toList ++ value.text)
  | among (values : List Placeholder) : SpellsTest column
      (column.text ++ " IN (".toList ++ listed (values.map Placeholder.text) ++ [')'])
  | notAmong (values : List Placeholder) : SpellsTest column
      (column.text ++ " NOT IN (".toList ++ listed (values.map Placeholder.text) ++ [')'])
  | always : SpellsTest column "1 = 1".toList
  | never : SpellsTest column "1 = 0".toList

mutual

/-- A text spells a predicate on the rows of an alias, with some aliases for the selects in it: its
columns are those of that alias, and each select in it is tied to it and spells its own clause on
the rows of its own alias. -/
inductive Spells (model : Model) :
    Resource → Alias → Predicate → List Char → List Alias → Prop
  | condition {r : Resource} {owner : Alias} {column : String} (test : Test) {text : List Char}
      (spelled : SpellsTest ⟨owner, column⟩ text) :
      Spells model r owner (.condition column test) text []
  | date {r : Resource} {owner : Alias} (column : String) (bound : DateBound) (day : String)
      (number : Nat) :
      Spells model r owner (.date column bound day)
        ("CAST(".toList ++ ColumnRef.text ⟨owner, column⟩ ++ " AS date) ".toList ++
          boundText bound ++ ' ' :: bare number ++ "::date".toList) []
  | contains {r : Resource} {owner : Alias} (column term : String) (number : Nat) :
      Spells model r owner (.contains column term)
        ("CAST(".toList ++ ColumnRef.text ⟨owner, column⟩ ++ " AS text) ILIKE ".toList ++
          bare number) []
  | related {r target : Resource} {owner : Alias} {name : String} (negated : Bool)
      {clause : Clause} {relation : Relation} (child : Alias) {inner : List Char}
      {aliases : List Alias} (found : model.related r name = .ok (relation, target))
      (spelled : ChainSpells model target child clause inner aliases) :
      Spells model r owner (.related name negated clause)
        ((if negated then "NOT ".toList else []) ++ "EXISTS (SELECT 1".toList ++
          relatedText relation target owner child ++
          (if clause.isEmpty then [] else " AND (".toList ++ inner ++ [')']) ++ [')'])
        (child :: aliases)
  | count {r target : Resource} {owner : Alias} {name : String} (comparator : CountComparator)
      (n : Int) {relation : Relation} (child : Alias) (number : Nat)
      (found : model.related r name = .ok (relation, target)) :
      Spells model r owner (.count name comparator n)
        ("(SELECT COUNT(*)".toList ++ relatedText relation target owner child ++ ") ".toList ++
          comparatorText comparator ++ ' ' :: bare number)
        [child]
  | group {r : Resource} {owner : Alias} {clause : Clause} {inner : List Char}
      {aliases : List Alias} (spelled : ChainSpells model r owner clause inner aliases) :
      Spells model r owner (.group clause) ('(' :: (inner ++ [')'])) aliases

/-- A text spells the predicates of a clause in turn, with their joiners between them. -/
inductive ChainSpells (model : Model) :
    Resource → Alias → List (Joiner × Predicate) → List Char → List Alias → Prop
  | nil {r : Resource} {owner : Alias} : ChainSpells model r owner [] [] []
  | one {r : Resource} {owner : Alias} (joiner : Joiner) {predicate : Predicate}
      {text : List Char} {aliases : List Alias}
      (spelled : Spells model r owner predicate text aliases) :
      ChainSpells model r owner [(joiner, predicate)] text aliases
  | more {r : Resource} {owner : Alias} (joiner next : Joiner) {predicate other : Predicate}
      {rest : Clause} {first others : List Char} {as bs : List Alias}
      (spelled : Spells model r owner predicate first as)
      (later : ChainSpells model r owner ((next, other) :: rest) others bs) :
      ChainSpells model r owner ((joiner, predicate) :: (next, other) :: rest)
        (first ++ ' ' :: (joinerText next ++ ' ' :: others)) (as ++ bs)

end

/-- A text spells a relation that is shown with each row of `main`, with an alias for its select:
all related rows as a list, or the first of them. -/
inductive SpellsShown (model : Model) (r : Resource) (name : String) :
    List Char × Alias → Prop
  | many {relation : Relation} {target : Resource} (child : Alias)
      (found : model.related r name = .ok (relation, target)) (many : relation.isMany = true) :
      SpellsShown model r name
        ("(SELECT COALESCE(json_agg(row_to_json(".toList ++ child.text ++
          ")), '[]'::json)".toList ++ relatedText relation target .main child ++ ") AS ".toList ++
          quoted name, child)
  | one {relation : Relation} {target : Resource} (child : Alias)
      (found : model.related r name = .ok (relation, target)) (one : relation.isMany = false) :
      SpellsShown model r name
        ("(SELECT row_to_json(".toList ++ child.text ++ ")".toList ++
          relatedText relation target .main child ++ " LIMIT 1) AS ".toList ++ quoted name, child)

/-! ## What is printed -/

/-- The source of a select that is tied to the row around it shows the tie. -/
theorem Scope.Ties.source_eq {s : Scope} {relation : Relation} {target : Resource} {around : Alias}
    (h : s.Ties relation target around) :
    s.source = relatedText relation target around s.child := by
  rw [Scope.source_eq, h.table, h.correlation, h.mark]
  unfold relatedText
  cases target.softDeleteColumn with
  | none => simp only [Option.map_none, markText, List.append_nil, List.append_assoc]
  | some column =>
    simp only [Option.map_some, markText, trashText, Bool.false_eq_true, if_false,
      List.append_assoc]

/-- A test of a column is printed as a test of that column. -/
theorem Condition.IsTest.spells {column : ColumnRef} {condition : Condition}
    (h : condition.IsTest column) : SpellsTest column condition.text := by
  cases h with
  | isNull negated =>
    cases negated with
    | false => exact .isNull
    | true => exact .isNotNull
  | equals negated value =>
    cases negated with
    | false => exact .equals value
    | true => exact .differs value
  | member negated values =>
    cases negated with
    | false => exact .among values
    | true => exact .notAmong values
  | constant holds =>
    cases holds with
    | false => exact .never
    | true => exact .always

section

variable {model : Model} {r : Resource} {owner : Alias}

/-- Conditions that follow a clause are printed as what spells the clause. -/
theorem ChainRenders.spells {clause : Clause}
    (h : ∀ entry ∈ clause, ∀ {condition}, Renders model r owner entry.2 condition →
      Spells model r owner entry.2 condition.text condition.aliases)
    {conditions : List (Joiner × Condition)}
    (hrenders : ChainRenders model r owner clause conditions) :
    ChainSpells model r owner clause (chainText conditions) (chainAliases conditions) := by
  induction clause generalizing conditions with
  | nil =>
    cases hrenders
    exact .nil
  | cons entry rest ih =>
    obtain ⟨joiner, predicate⟩ := entry
    obtain ⟨hentry, hrest⟩ := List.forall_mem_cons.mp h
    obtain ⟨first, others, rfl, hfirst, hothers⟩ := hrenders
    cases rest with
    | nil =>
      cases hothers
      have hone : ChainSpells model r owner [(joiner, predicate)] first.text first.aliases :=
        .one joiner (hentry hfirst)
      simpa [chainText, tailText, chainAliases] using hone
    | cons next rest =>
      have hlater := ih hrest hothers
      obtain ⟨second, left, rfl, _, _⟩ := hothers
      exact .more joiner next.1 (hentry hfirst) hlater

/-- A condition that follows a predicate is printed as what spells the predicate. -/
theorem Renders.spells (predicate : Predicate) {condition : Condition}
    (h : Renders model r owner predicate condition) :
    Spells model r owner predicate condition.text condition.aliases := by
  induction predicate using Predicate.induct generalizing r owner condition with
  | condition column test =>
    have htest : condition.IsTest ⟨owner, column⟩ := h
    have haliases : condition.aliases = [] := by
      cases htest <;> rfl
    rw [haliases]
    exact .condition test htest.spells
  | date column bound day =>
    obtain ⟨number, rfl⟩ := h
    exact .date column bound day number
  | contains column term =>
    obtain ⟨number, rfl⟩ := h
    exact .contains column term number
  | related name negated clause ih =>
    obtain ⟨relation, target, scope, inner, hrelated, hties, rfl, hinner⟩ := h
    -- an empty clause is written without its parentheses
    have hempty : inner.isEmpty = clause.isEmpty := by
      cases clause with
      | nil =>
        cases hinner
        rfl
      | cons entry rest =>
        obtain ⟨_, _, rfl, _, _⟩ := hinner
        rfl
    have hspelled := ChainRenders.spells (fun entry hentry _ h => ih entry hentry h) hinner
    rw [existsRow_text, hties.source_eq, hempty]
    exact .related negated scope.child hrelated hspelled
  | count name comparator n =>
    obtain ⟨relation, target, scope, number, hrelated, hties, rfl⟩ := h
    have htext : (Condition.countRows scope comparator number).text =
        "(SELECT COUNT(*)".toList ++ scope.source ++ ") ".toList ++ comparatorText comparator ++
          ' ' :: bare number := rfl
    rw [htext, hties.source_eq]
    exact .count comparator n scope.child number hrelated
  | group clause ih =>
    obtain ⟨inner, rfl, hinner⟩ := h
    exact .group (ChainRenders.spells (fun entry hentry _ h => ih entry hentry h) hinner)

/-- A relation that is shown with each row is printed as what spells it. -/
theorem Embedded.Follows.spells {name : String} {e : Embedded}
    (h : Embedded.Follows model r name e) : SpellsShown model r name (e.text, e.scope.child) := by
  obtain ⟨relation, target, hrelated, rfl, hmany, hties⟩ := h
  rw [Embedded.text, hties.source_eq]
  cases hkind : relation.isMany with
  | true =>
    have hspelled : SpellsShown model r e.name _ := .many e.scope.child hrelated hkind
    simpa [hmany, hkind] using hspelled
  | false =>
    have hspelled := SpellsShown.one e.scope.child hrelated hkind
    simpa [hmany, hkind] using hspelled

end

/-! ## Statements -/

/-- A text spells the clause of a query on the rows of `main`, and relations that are shown with
each of them, with aliases that are different from each other and from `main`. -/
def Correlated (model : Model) (r : Resource) (query : Query) (eager : List String)
    (text : List Char) : Prop :=
  ∃ (chain : List Char) (aliases : List Alias) (shown : List (List Char × Alias)),
    ChainSpells model r .main query.clause chain aliases ∧ chain <:+: text ∧
    List.Forall₂ (SpellsShown model r) eager shown ∧ (∀ part ∈ shown, part.1 <:+: text) ∧
    ((Alias.main :: (aliases ++ shown.map Prod.snd)).map Alias.text).Nodup

/-- Each of the texts between separators stands in the whole. -/
theorem infix_separated (separator : List Char) {part : List Char} {parts : List (List Char)}
    (h : part ∈ parts) : part <:+: separated separator parts := by
  induction parts with
  | nil => cases h
  | cons first rest ih =>
    cases rest with
    | nil =>
      rw [List.mem_singleton.mp h]
      exact List.infix_rfl
    | cons next others =>
      rcases List.mem_cons.mp h with rfl | h
      · exact List.infix_append [] part _
      · exact (ih h).trans ⟨first ++ separator, [], by simp [separated]⟩

/-- The conditions of a statement stand in its restriction. -/
theorem Restriction.chain_isInfix (w : Restriction) : chainText w.conditions <:+: w.text := by
  by_cases hnone : w.conditions = []
  · rw [hnone]
    exact List.nil_infix
  · have hmem : ∃ part ∈ w.parts, chainText w.conditions <:+: part := by
      have hfilled : w.conditions.isEmpty = false := List.isEmpty_eq_false_iff.mpr hnone
      cases hdisjunctive : isDisjunctive w.conditions with
      | true => exact ⟨'(' :: (chainText w.conditions ++ [')']),
          by simp [parts, hfilled, hdisjunctive], ['('], [')'], by simp⟩
      | false => exact ⟨chainText w.conditions, by simp [parts, hfilled, hdisjunctive],
          List.infix_rfl⟩
    obtain ⟨part, hpart, hinfix⟩ := hmem
    have hparts : w.parts.isEmpty = false :=
      List.isEmpty_eq_false_iff.mpr (List.ne_nil_of_mem hpart)
    have hseparated := hinfix.trans (infix_separated " AND ".toList hpart)
    rw [Restriction.text, if_neg (by simp [hparts])]
    exact hseparated.trans ⟨" WHERE ".toList, [], List.append_nil _⟩

/-- The restriction of a selection stands in its text. -/
theorem Selection.restriction_isInfix (s : Selection) : s.restriction.text <:+: s.text :=
  ⟨"SELECT ".toList ++ s.shown ++ " FROM ".toList ++ mainTable s.table,
    orderText s.order ++ s.extent.text, (List.append_assoc _ _ _).symm⟩

/-- The relations that a selection shows stand in its text. -/
theorem Selection.embedded_isInfix (s : Selection) {e : Embedded} (he : e ∈ s.embedded) :
    e.text <:+: s.text := by
  have hshown : e.text <:+: s.shown :=
    infix_separated _ (List.mem_append_right _ (List.mem_map_of_mem he))
  refine hshown.trans ⟨"SELECT ".toList, " FROM ".toList ++ mainTable s.table ++
    s.restriction.text ++ orderText s.order ++ s.extent.text, ?_⟩
  unfold Selection.text
  simp only [List.append_assoc]

/-- A statement whose restriction and whose shown relations follow a query is correlated as soon as
it shows both. -/
theorem Scoped.correlated {model : Model} {r : Resource} {query : Query}
    {restriction : Restriction} {eager : List String} {embedded : List Embedded}
    (h : Scoped model r query restriction eager embedded) {text : List Char}
    (hrestriction : restriction.text <:+: text) (hembedded : ∀ e ∈ embedded, e.text <:+: text) :
    Correlated model r query eager text := by
  refine ⟨chainText restriction.conditions, chainAliases restriction.conditions,
    embedded.map fun e => (e.text, e.scope.child), ?_, restriction.chain_isInfix.trans hrestriction,
    ?_, ?_, ?_⟩
  · exact ChainRenders.spells (fun entry _ _ h => Renders.spells entry.2 h) h.renders
  · exact List.forall₂_map_right_iff.mpr (h.follows.imp fun _ _ hfollows => hfollows.spells)
  · intro part hpart
    obtain ⟨e, he, rfl⟩ := List.mem_map.mp hpart
    exact hembedded e he
  · have hdistinct := h.distinct
    rwa [List.map_map]

/-- The first, page and count statements of a query show in their text that no alias is captured:
every select of related rows is tied to the row around it and spells its clause on its own rows, and
no two of them have one alias. -/
theorem selects_are_correlated (model : Model) (query : Query) :
    (∀ first, firstOf model query = .ok first →
      ∃ r, model.requireResource query.resource = .ok r ∧
        Correlated model r query query.eager first.statement.text) ∧
    ∀ paging page tally, pageOf model query paging = .ok (page, tally) →
      ∃ r, model.requireResource query.resource = .ok r ∧
        Correlated model r query query.eager page.statement.text ∧
        Correlated model r query [] tally.statement.text := by
  have hselection : ∀ (parts : Parts model query) (extent : Extent),
      Correlated model parts.resource query query.eager (parts.selection extent).text := by
    intro parts extent
    exact (scoped_of_built parts.restricts parts.embeds).correlated
      (parts.selection extent).restriction_isInfix
      fun e he => (parts.selection extent).embedded_isInfix he
  constructor
  · intro first h
    obtain ⟨parts, rfl⟩ := firstOf_built h
    exact ⟨parts.resource, parts.requires, hselection parts _⟩
  · intro paging page tally h
    obtain ⟨parts, rfl, rfl⟩ := pageOf_built h
    have hnone : embeddedOf model parts.resource [] parts.counted = .ok ([], parts.counted) := rfl
    have htally : parts.restriction.text <:+:
        (Tally.mk (tableOf parts.resource) parts.restriction).text :=
      ⟨_, [], List.append_nil _⟩
    exact ⟨parts.resource, parts.requires, hselection parts _,
      (scoped_of_built parts.restricts hnone).correlated htally (List.forall_mem_nil _)⟩

/-- Posts with a comment on no post without a title: the posts at the two depths are told apart. -/
example :
    let query : Query := {
      resource := "posts"
      clause := [(.and, .related "comments" false
        [(.and, .related "post" true [(.and, .condition "title" (.equals .null))])])] }
    (firstOf Config.journal query).map (fun first => first.statement.text) =
      .ok ("SELECT main.* FROM \"public\".\"posts\" main WHERE ".toList ++
        "main.\"deleted_at\" IS NULL AND EXISTS (SELECT 1".toList ++
        " FROM \"public\".\"comments\" r1 WHERE r1.\"post_id\" = main.\"id\"".toList ++
        " AND r1.\"deleted_at\" IS NULL AND (NOT EXISTS (SELECT 1".toList ++
        " FROM \"public\".\"posts\" r2 WHERE r2.\"id\" = r1.\"post_id\"".toList ++
        " AND r2.\"deleted_at\" IS NULL AND (r2.\"title\" IS NULL)))) LIMIT 1".toList) := by
  decide +kernel

end Records.Sql
