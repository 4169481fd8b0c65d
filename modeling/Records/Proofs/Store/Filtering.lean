import Records.Proofs.Store.Listing

/-!
# What filters ask of a row

`Filters.value` gives the truth value of filters on a row from their items alone: the bounds on the
time stamp and then the items, cut before every item marked `or:`, hold when some block holds
throughout, where items that ask for nothing do not count.  A path asks for a live related row that
passes the rest of it, or marked `not:` for none.

Filters that are read compile to a clause with that value (`compile_means_value`).  Each item
becomes a run of entries (`Chunk`), empty when the item asks for nothing, whose first entry begins a
run exactly when the item begins a block; so the runs of the clause are the blocks of the items.
-/

set_option autoImplicit false

namespace Records

/-! ## The meaning of filters -/

/-- Whether an operand is a range without bounds. -/
def Operand.isUnbounded : Operand → Bool
  | .scalar _ => false
  | .list _ => false
  | .range lower upper => lower.isNone && upper.isNone

namespace FilterItem

mutual

/-- Whether an item asks for nothing: a range without bounds on a column of the resource itself, or
a group of such items. -/
def isVacuous : FilterItem → Bool
  | .condition path operand => path.relations.isEmpty && operand.isUnbounded
  | .anyOf items => areVacuous items

/-- Whether every one of some items asks for nothing. -/
def areVacuous : List FilterItem → Bool
  | [] => true
  | item :: items => item.isVacuous && areVacuous items

end

/-- Whether an item begins a block: its key is marked `or:`, at the first relation of a path. -/
def opens : FilterItem → Bool
  | .condition path _ => (path.relations.headD path.column).disjoin
  | .anyOf _ => false

end FilterItem

namespace Store

/-- Whether a day in a column is within a bound, if there is one. -/
def admitsBound (row : Row) (column : String) (bound : DateBound) : Option String → Bool
  | none => true
  | some raw =>
    match Date.normalize raw with
    | .ok limit =>
      ((Fields.get? row column).bind Json.text?).any fun text => bound.admits limit (dayOf text)
    | .error _ => false

/-- Whether a row has in a column what an operand asks for, or with `not:` has not. -/
def passesColumn (row : Row) (segment : Segment) : Operand → Bool
  | .scalar value =>
    (if segment.negated then Test.differs value else Test.equals value).passes
      (Row.present? row segment.name)
  | .list values =>
    (if segment.negated then Test.notAmong values else Test.among values).passes
      (Row.present? row segment.name)
  | .range lower upper =>
    admitsBound row segment.name .lower lower && admitsBound row segment.name .upper upper

/-- Whether some live related row, and with `not:` none, passes the rest of a path. -/
def passesPath (model : Model) (store : Store) (r : Resource) (row : Row) (column : Segment)
    (operand : Operand) : List Segment → Bool
  | [] => passesColumn row column operand
  | segment :: rest =>
    match model.related r segment.name with
    | .ok (relation, target) =>
      ((store.relatedRows relation target row).any fun child =>
        passesPath model store target child column operand rest) != segment.negated
    | .error _ => false

mutual

/-- Whether a row passes an item: its condition, or an item of its group that asks for anything. -/
def passesItem (model : Model) (store : Store) (r : Resource) (row : Row) : FilterItem → Bool
  | .condition path operand =>
    store.passesPath model r row path.column operand path.relations
  | .anyOf items => passesSome model store r row items

/-- Whether a row passes some item that asks for anything. -/
def passesSome (model : Model) (store : Store) (r : Resource) (row : Row) :
    List FilterItem → Bool
  | [] => false
  | item :: items =>
    (!item.isVacuous && store.passesItem model r row item) || passesSome model store r row items

end

end Store

namespace Filters

/-- A bound on the time stamp, as an item. -/
def boundItem (r : Resource) (lower upper : Option String) : FilterItem :=
  .condition ⟨[], ⟨r.timestampColumn, false, false⟩⟩ (.range lower upper)

/-- The items of filters that ask for anything, the bounds on the time stamp first. -/
def asked (r : Resource) (filters : Filters) : List FilterItem :=
  (boundItem r filters.lower none :: boundItem r none filters.upper :: filters.items).filter
    fun item => !item.isVacuous

/-- The truth value of filters on a row: some block of items holds throughout, unless nothing is
asked. -/
def value (model : Model) (store : Store) (r : Resource) (row : Row) (filters : Filters) : Bool :=
  (filters.asked r).isEmpty ||
    (joinedRuns FilterItem.opens (filters.asked r)).any fun block =>
      block.all (store.passesItem model r row)

end Filters

/-! ## Filters that are read -/

/-- An operand whose scalar is no list. -/
def Operand.IsPlain : Operand → Prop
  | .scalar value => ∀ values, value ≠ .arr values
  | .list _ => True
  | .range _ _ => True

namespace FilterItem

/-- A condition with a plain operand. -/
def IsCondition : FilterItem → Prop
  | .condition _ operand => operand.IsPlain
  | .anyOf _ => False

/-- A condition with a plain operand, or a group of them. -/
def IsFlat : FilterItem → Prop
  | .condition _ operand => operand.IsPlain
  | .anyOf items => ∀ item ∈ items, item.IsCondition

end FilterItem

/-- An operand that was read is plain. -/
theorem Operand.isPlain_of_parse {name : String} {json : Json} {operand : Operand}
    (h : Operand.parse name json = .ok operand) : operand.IsPlain := by
  cases json with
  | obj fields =>
    rw [parse] at h
    split at h
    · obtain ⟨lower, _, h⟩ := Outcome.bind_eq_ok.mp h
      obtain ⟨upper, _, h⟩ := Outcome.bind_eq_ok.mp h
      cases h
      trivial
    · cases h
  | arr values =>
    rw [parse] at h
    split at h
    · cases h
    · cases h
      trivial
  | _ =>
    cases h
    intro values hvalue
    cases hvalue

namespace FilterItem

/-- What is read as a condition is one. -/
theorem isCondition_of_parseCondition {field : String × Json} {item : FilterItem}
    (h : parseCondition field = .ok item) : item.IsCondition := by
  obtain ⟨path, _, h⟩ := Outcome.bind_eq_ok.mp h
  obtain ⟨operand, hoperand, h⟩ := Outcome.bind_eq_ok.mp h
  cases h
  exact Operand.isPlain_of_parse hoperand

/-- A condition is flat. -/
theorem IsCondition.isFlat {item : FilterItem} (h : item.IsCondition) : item.IsFlat := by
  cases item with
  | condition path operand => exact h
  | anyOf items => cases h

/-- No group that is read has a group in it. -/
theorem isFlat_of_parse {field : String × Json} {item : FilterItem} (h : parse field = .ok item) :
    item.IsFlat := by
  rw [parse] at h
  split at h
  · obtain ⟨members, hmembers, rfl⟩ := Outcome.map_eq_ok.mp h
    intro member hmember
    obtain ⟨other, _, hother⟩ := Outcome.exists_of_mapM_eq_ok hmembers hmember
    rw [parseMember] at hother
    split at hother
    · cases hother
    · exact isCondition_of_parseCondition hother
  · exact (isCondition_of_parseCondition h).isFlat

end FilterItem

/-- The items of filters that were read are flat: groups hold no groups. -/
theorem Filters.isFlat_of_parse {json : Json} {filters : Filters}
    (h : Filters.parse json = .ok filters) : ∀ item ∈ filters.items, item.IsFlat := by
  cases json with
  | null =>
    cases h
    exact List.forall_mem_nil _
  | obj fields =>
    obtain ⟨lower, _, h⟩ := Outcome.bind_eq_ok.mp h
    obtain ⟨upper, _, h⟩ := Outcome.bind_eq_ok.mp h
    obtain ⟨items, hitems, h⟩ := Outcome.bind_eq_ok.mp h
    cases h
    intro item hitem
    obtain ⟨field, _, hfield⟩ := Outcome.exists_of_mapM_eq_ok hitems hitem
    exact FilterItem.isFlat_of_parse hfield
  | _ => cases h

/-! ## Runs of entries -/

/-- The entries of something that asks for nothing, or a run of entries: the first begins a run of
the clause when `opens`, no other does, and all of them together have a truth value. -/
inductive Chunk (truth : Predicate → Bool) (opens value : Bool) : Bool → Clause → Prop where
  | none : Chunk truth opens value true []
  | run {joiner : Joiner} {predicate : Predicate} {rest : Clause}
    (hjoiner : decide (joiner = .or) = opens) (hrest : ∀ entry ∈ rest, entry.1 = .and)
    (hvalue : (truth predicate && rest.all fun entry => truth entry.2) = value) :
    Chunk truth opens value false ((joiner, predicate) :: rest)

section

variable {α : Type} {truth : Predicate → Bool} {opens value vacuous : α → Bool}

/-- Elements that open no run lengthen the leading run of what follows them. -/
theorem splitLeadingRun_append_of_forall {β : Type} (begins : β → Bool) (l rest : List β)
    (h : ∀ b ∈ l, begins b = false) :
    splitLeadingRun begins (l ++ rest) =
      (l ++ (splitLeadingRun begins rest).1, (splitLeadingRun begins rest).2) := by
  induction l with
  | nil => rfl
  | cons b others ih =>
    obtain ⟨hb, hothers⟩ := List.forall_mem_cons.mp h
    simp [splitLeadingRun, hb, ih hothers]

/-- Entries joined by `and` are read into the run that is being read. -/
theorem splitLeadingRun_of_joined {rest : Clause} (hrest : ∀ entry ∈ rest, entry.1 = .and)
    (others : Clause) :
    let begins := fun entry : Joiner × Predicate => decide (entry.1 = .or)
    splitLeadingRun begins (rest ++ others) =
      (rest ++ (splitLeadingRun begins others).1, (splitLeadingRun begins others).2) :=
  splitLeadingRun_append_of_forall _ rest others fun entry hentry => by simp [hrest entry hentry]

/-- After a first item, the runs of the entries have the values of the blocks of the items. -/
theorem splitLeadingRun_of_chunks {items : List α} {chunks : List Clause}
    (h : List.Forall₂ (fun a chunk => Chunk truth (opens a) (value a) (vacuous a) chunk) items
      chunks) :
    let runs := splitLeadingRun (fun entry : Joiner × Predicate => entry.1 = .or) chunks.flatten
    let parts := splitLeadingRun opens (items.filter fun a => !vacuous a)
    (runs.1.all fun entry => truth entry.2) = parts.1.all value ∧
      (runs.2.any fun run => run.all fun entry => truth entry.2) =
        parts.2.any fun part => part.all value := by
  induction h with
  | nil => exact ⟨rfl, rfl⟩
  | cons hchunk _ ih =>
    rename_i a chunk items chunks _
    generalize hvacuous : vacuous a = empty at hchunk
    cases hchunk with
    | none => simpa [hvacuous] using ih
    | run hjoiner hrest hvalue =>
      rename_i joiner predicate rest
      obtain ⟨hlead, hruns⟩ := ih
      have hothers := splitLeadingRun_of_joined hrest chunks.flatten
      rw [List.flatten_cons, List.cons_append]
      simp only [splitLeadingRun, hothers, List.filter_cons, hvacuous, Bool.not_false, if_true,
        hjoiner]
      cases opens a with
      | false => simp [hlead, hruns, ← hvalue, Bool.and_assoc]
      | true => simp [hlead, hruns, ← hvalue, Bool.and_assoc]

/-- The runs of a clause made of the entries of items are the blocks of the items that ask for
anything. -/
theorem value_of_chunks {items : List α} {chunks : List Clause}
    (h : List.Forall₂ (fun a chunk => Chunk truth (opens a) (value a) (vacuous a) chunk) items
      chunks) :
    Clause.value truth chunks.flatten =
      ((items.filter fun a => !vacuous a).isEmpty ||
        (joinedRuns opens (items.filter fun a => !vacuous a)).any fun part => part.all value) := by
  induction h with
  | nil => rfl
  | cons hchunk hothers ih =>
    rename_i a chunk items chunks
    generalize hvacuous : vacuous a = empty at hchunk
    cases hchunk with
    | none => simpa [hvacuous] using ih
    | run hjoiner hrest hvalue =>
      rename_i joiner predicate rest
      obtain ⟨hlead, hruns⟩ := splitLeadingRun_of_chunks hothers
      have hothers := splitLeadingRun_of_joined hrest chunks.flatten
      simp [Clause.value, Clause.runs, joinedRuns, hothers, hvacuous, hlead, hruns, ← hvalue,
        Bool.and_assoc]

/-- The entries of items are missing only when all of the items ask for nothing. -/
theorem isEmpty_of_chunks {items : List α} {chunks : List Clause}
    (h : List.Forall₂ (fun a chunk => Chunk truth (opens a) (value a) (vacuous a) chunk) items
      chunks) : chunks.flatten.isEmpty = items.all vacuous := by
  induction h with
  | nil => rfl
  | cons hchunk _ ih =>
    rename_i a chunk items chunks _
    generalize hvacuous : vacuous a = empty at hchunk
    cases hchunk with
    | none => simpa [hvacuous] using ih
    | run hjoiner hrest hvalue => simp [hvacuous]

/-- Nothing fails a test exactly when everything passes it. -/
theorem isEmpty_filter_not {β : Type} (p : β → Bool) (l : List β) :
    (l.filter fun b => !p b).isEmpty = l.all p := by
  induction l with
  | nil => rfl
  | cons b rest ih =>
    rw [List.filter_cons, List.all_cons, ← ih]
    cases p b <;> rfl

/-- Entries that all open a run are runs of one. -/
theorem joinedRuns_of_all {β : Type} (l : List β) :
    joinedRuns (fun _ => true) l = l.map fun b => [b] := by
  have hleading : ∀ rest : List β,
      splitLeadingRun (fun _ => true) rest = ([], rest.map fun b => [b]) := by
    intro rest
    induction rest with
    | nil => rfl
    | cons b others ih => simp [splitLeadingRun, ih]
  cases l with
  | nil => rfl
  | cons b rest => simp [joinedRuns, hleading]

end

/-- Entries all of which are joined by `and`, with the truth value that they have together. -/
structure Conjunction (truth : Predicate → Bool) (value empty : Bool) (clause : Clause) : Prop where
  joined : ∀ entry ∈ clause, entry.1 = .and
  isEmpty : clause.isEmpty = empty
  all : (clause.all fun entry => truth entry.2) = value

section

variable {truth : Predicate → Bool} {value empty opens : Bool} {clause : Clause}

/-- Two conjunctions one after the other hold when both do. -/
theorem Conjunction.append {other : Bool} {unasked : Bool} {last : Clause}
    (h : Conjunction truth value empty clause) (hlast : Conjunction truth other unasked last) :
    Conjunction truth (value && other) (empty && unasked) (clause ++ last) where
  joined := List.forall_mem_append.mpr ⟨h.joined, hlast.joined⟩
  isEmpty := by
    rw [← h.isEmpty, ← hlast.isEmpty]
    cases clause <;> rfl
  all := by rw [List.all_append, h.all, hlast.all]

/-- A conjunction that is a clause has its own truth value. -/
theorem Conjunction.value_eq (h : Conjunction truth value empty clause) :
    Clause.value truth clause = value := by
  rw [Clause.value_eq_all truth clause h.joined, h.all]

/-- A conjunction begins no run of its own. -/
theorem Conjunction.chunk (h : Conjunction truth value empty clause) :
    Chunk truth false value empty clause := by
  obtain ⟨hjoined, rfl, rfl⟩ := h
  cases clause with
  | nil => exact .none
  | cons entry rest =>
    obtain ⟨hfirst, hrest⟩ := List.forall_mem_cons.mp hjoined
    obtain ⟨joiner, predicate⟩ := entry
    cases hfirst
    exact .run rfl hrest rfl

/-- A conjunction that is added as a group joined by `or`. -/
theorem Conjunction.group (h : Conjunction truth value empty clause)
    (hgroup : truth (.group clause) = Clause.value truth clause) :
    Chunk truth true value empty (Clause.addGroup [] .or clause) := by
  have hvalue := hgroup.trans h.value_eq
  obtain ⟨_, rfl, _⟩ := h
  cases clause with
  | nil => exact .none
  | cons entry rest => exact .run rfl (List.forall_mem_nil _) (by simpa using hvalue)

/-- A run has its value as a clause of its own. -/
theorem Chunk.value_eq (h : Chunk truth opens value empty clause)
    (hempty : empty = true → value = true) : Clause.value truth clause = value := by
  cases h with
  | none => exact (hempty rfl).symm
  | run hjoiner hrest hvalue =>
    rename_i joiner predicate rest
    have hblock := joinedRuns_eq_singleton
      (fun entry : Joiner × Predicate => decide (entry.1 = .or))
      (joiner, predicate) rest fun entry hentry => by simp [hrest entry hentry]
    simpa [Clause.value, Clause.runs, hblock] using hvalue

end

/-! ## What filters compile to -/

namespace Filtering

variable {model : Model} {store : Store} {r : Resource} {row : Row} {joiner : Joiner}
  {clause : Clause}

/-- The entry for a bound holds when the day in the column is within it. -/
theorem boundClause_conjunction {column : String} {bound : DateBound} {raw : Option String}
    (h : boundClause column bound raw = .ok clause) :
    Conjunction (store.holds model r row) (Store.admitsBound row column bound raw) raw.isNone
      clause := by
  cases raw with
  | none =>
    cases h
    exact ⟨List.forall_mem_nil _, rfl, rfl⟩
  | some raw =>
    obtain ⟨day, hday, rfl⟩ := Outcome.map_eq_ok.mp h
    refine ⟨by simp, rfl, ?_⟩
    rw [Store.admitsBound, hday, List.all_cons, List.all_nil, Bool.and_true]
    rfl

/-- The entries for a range hold when the day in the column is within both bounds. -/
theorem rangeClause_conjunction {column : String} {lower upper : Option String}
    (h : rangeClause column lower upper = .ok clause) :
    Conjunction (store.holds model r row)
      (Store.admitsBound row column .lower lower && Store.admitsBound row column .upper upper)
      (lower.isNone && upper.isNone) clause := by
  obtain ⟨first, hfirst, h⟩ := Outcome.bind_eq_ok.mp h
  obtain ⟨last, hlast, h⟩ := Outcome.bind_eq_ok.mp h
  cases h
  exact (boundClause_conjunction hfirst).append (boundClause_conjunction hlast)

/-- A test of a column is one entry. -/
theorem chunk_test {column : String} {test : Test} {value : Bool}
    (h : test.passes (Row.present? row column) = value) :
    Chunk (store.holds model r row) (decide (joiner = .or)) value false
      [(joiner, .condition column test)] := by
  refine .run rfl (List.forall_mem_nil _) ?_
  rw [List.all_nil, Bool.and_true]
  exact h

/-- The test for a plain scalar is that for its value, or for any other when negated. -/
theorem ofValue_of_isPlain {value : Json} (h : (Operand.scalar value).IsPlain) (negated : Bool) :
    Test.ofValue negated value = if negated then .differs value else .equals value := by
  cases value with
  | arr values => exact absurd rfl (h values)
  | _ => rfl

/-- The entries for a column hold when the row has in it what the operand asks for. -/
theorem columnClause_chunk {segment : Segment} {operand : Operand} (hplain : operand.IsPlain)
    (h : columnClause r segment operand joiner = .ok clause) :
    Chunk (store.holds model r row) (decide (joinerOf segment joiner = .or))
      (Store.passesColumn row segment operand) operand.isUnbounded clause := by
  obtain ⟨column, hfound, h⟩ := Outcome.bind_eq_ok.mp h
  rw [Resource.name_of_requireColumn hfound] at h
  cases operand with
  | scalar value =>
    cases h
    apply chunk_test
    rw [ofValue_of_isPlain hplain]
    rfl
  | list values =>
    cases h
    exact chunk_test rfl
  | range lower upper =>
    simp only at h
    split at h
    · cases h
    · obtain ⟨range, hrange, h⟩ := Outcome.bind_eq_ok.mp h
      have hconjunction : Conjunction (store.holds model r row) _ _ range :=
        rangeClause_conjunction hrange
      -- joined by `or`, the two bounds are put in a group, so that they stay together
      cases hjoiner : joinerOf segment joiner with
      | and =>
        rw [hjoiner] at h
        cases h
        exact hconjunction.chunk
      | or =>
        rw [hjoiner] at h
        cases h
        exact hconjunction.group (Store.holds_group model store r row (rangeClause_resolves hrange))

/-- A range without bounds is passed by every row. -/
theorem passesColumn_of_isUnbounded {segment : Segment} {operand : Operand}
    (h : operand.isUnbounded = true) : Store.passesColumn row segment operand = true := by
  cases operand with
  | scalar value => cases h
  | list values => cases h
  | range lower upper =>
    rw [Operand.isUnbounded, Bool.and_eq_true, Option.isNone_iff_eq_none,
      Option.isNone_iff_eq_none] at h
    obtain ⟨rfl, rfl⟩ := h
    rfl

/-- A path becomes one test on related rows around the entries for the rest of it. -/
theorem pathClause_chunk {column : Segment} {operand : Operand} (hplain : operand.IsPlain)
    {path : List Segment} (h : pathClause model r column operand joiner path = .ok clause) :
    Chunk (store.holds model r row) (decide (joinerOf (path.headD column) joiner = .or))
      (store.passesPath model r row column operand path) (path.isEmpty && operand.isUnbounded)
      clause := by
  induction path generalizing r row joiner clause with
  | nil => exact columnClause_chunk hplain h
  | cons segment rest ih =>
    obtain ⟨⟨relation, target⟩, hrelated, h⟩ := Outcome.bind_eq_ok.mp h
    obtain ⟨inner, hinner, h⟩ := Outcome.bind_eq_ok.mp h
    cases h
    have hresolves : Clause.Resolves model target inner :=
      (pathClause_wellFormed (Nat.le_refl _) hinner).resolves
    have hchild : ∀ child, Clause.value (store.holds model target child) inner =
        store.passesPath model target child column operand rest := by
      intro child
      apply (ih hinner).value_eq
      intro hempty
      rw [Bool.and_eq_true, List.isEmpty_iff] at hempty
      obtain ⟨rfl, hunbounded⟩ := hempty
      exact passesColumn_of_isUnbounded hunbounded
    refine .run rfl (List.forall_mem_nil _) ?_
    rw [Store.holds_related model store r row hrelated hresolves, Store.passesPath, hrelated,
      List.all_nil, Bool.and_true]
    simp only [hchild]

/-- The entries for a condition hold when the row passes it, at the end of its path. -/
theorem conditionClause_chunk {path : FilterPath} {operand : Operand} (hplain : operand.IsPlain)
    (h : itemClause model r joiner (.condition path operand) = .ok clause) :
    Chunk (store.holds model r row)
      (decide (joinerOf (path.relations.headD path.column) joiner = .or))
      (store.passesItem model r row (.condition path operand))
      (FilterItem.condition path operand).isVacuous clause := by
  rw [Store.passesItem, FilterItem.isVacuous]
  exact pathClause_chunk hplain h

/-- The entries for items are those for each item in turn. -/
theorem exists_chunks_of_itemsClause {items : List FilterItem}
    (h : itemsClause model r joiner items = .ok clause) :
    ∃ chunks, List.Forall₂ (fun item chunk => itemClause model r joiner item = .ok chunk) items
      chunks ∧ clause = chunks.flatten := by
  induction items generalizing clause with
  | nil =>
    cases h
    exact ⟨[], .nil, rfl⟩
  | cons item rest ih =>
    obtain ⟨first, hfirst, h⟩ := Outcome.bind_eq_ok.mp h
    obtain ⟨others, hothers, h⟩ := Outcome.bind_eq_ok.mp h
    cases h
    obtain ⟨chunks, hchunks, rfl⟩ := ih hothers
    exact ⟨first :: chunks, .cons hfirst hchunks, rfl⟩

/-- The entries of an item that is read. -/
def IsItemChunk (model : Model) (store : Store) (r : Resource) (row : Row) (item : FilterItem)
    (clause : Clause) : Prop :=
  Chunk (store.holds model r row) item.opens (store.passesItem model r row item) item.isVacuous
    clause

/-- Items ask for nothing when each of them does. -/
theorem areVacuous_eq_all (items : List FilterItem) :
    FilterItem.areVacuous items = items.all FilterItem.isVacuous := by
  induction items with
  | nil => rfl
  | cons item rest ih => rw [FilterItem.areVacuous, List.all_cons, ih]

/-- A row passes some item when it passes one that asks for anything. -/
theorem passesSome_eq_any (items : List FilterItem) :
    store.passesSome model r row items =
      (items.filter fun item => !item.isVacuous).any (store.passesItem model r row) := by
  induction items with
  | nil => rfl
  | cons item rest ih =>
    rw [Store.passesSome, ih, List.filter_cons]
    cases item.isVacuous <;> simp

/-- In a group every segment is joined by `or`. -/
theorem joinerOf_or (segment : Segment) : decide (joinerOf segment .or = .or) = true := by
  rw [joinerOf]
  cases segment.disjoin <;> rfl

/-- Outside groups a segment is joined by `or` when it is marked so. -/
theorem joinerOf_and (segment : Segment) :
    decide (joinerOf segment .and = .or) = segment.disjoin := by
  rw [joinerOf]
  cases segment.disjoin <;> rfl

/-- A group of conditions becomes one group of their entries, in which each of them begins a run. -/
theorem groupClause_chunk {items : List FilterItem} (hconditions : ∀ item ∈ items, item.IsCondition)
    (h : itemClause model r joiner (.anyOf items) = .ok clause) :
    IsItemChunk model store r row (.anyOf items) clause := by
  obtain ⟨members, hmembers, h⟩ := Outcome.bind_eq_ok.mp h
  cases h
  have hresolves : Clause.Resolves model r members :=
    (itemsClause_wellFormed _ (Nat.le_refl _) hmembers).resolves
  obtain ⟨chunks, hchunks, rfl⟩ := exists_chunks_of_itemsClause hmembers
  have hruns : List.Forall₂ (fun item chunk => Chunk (store.holds model r row) true
      (store.passesItem model r row item) item.isVacuous chunk) items chunks := by
    refine ((List.forall₂_and_left items chunks).mpr ⟨hconditions, hchunks⟩).imp ?_
    rintro (⟨path, operand⟩ | members) chunk ⟨hplain, hchunk⟩
    · have hrun : Chunk (store.holds model r row) _ _ _ chunk := conditionClause_chunk hplain hchunk
      rwa [joinerOf_or] at hrun
    · cases hplain
  have hempty := isEmpty_of_chunks hruns
  have hvalue := value_of_chunks hruns
  rw [isEmpty_filter_not, joinedRuns_of_all, List.any_map] at hvalue
  have hgroup := (Store.holds_group model store r row hresolves).trans hvalue
  rw [IsItemChunk, FilterItem.isVacuous, areVacuous_eq_all, ← hempty, Store.passesItem,
    passesSome_eq_any]
  rw [← hempty] at hgroup
  -- a group without entries is left out, and so asks for nothing
  generalize chunks.flatten = members at hgroup
  cases members with
  | nil => exact .none
  | cons entry rest =>
    refine .run rfl (List.forall_mem_nil _) ?_
    simpa using hgroup

/-- The entries for a flat item hold when the row passes it. -/
theorem itemClause_chunk {item : FilterItem} (hflat : item.IsFlat)
    (h : itemClause model r .and item = .ok clause) :
    IsItemChunk model store r row item clause := by
  cases item with
  | condition path operand =>
    have hchunk : Chunk (store.holds model r row) _ _ _ clause := conditionClause_chunk hflat h
    rwa [joinerOf_and] at hchunk
  | anyOf items => exact groupClause_chunk hflat h

/-- A bound on the time stamp begins no run. -/
theorem boundItem_chunk {lower upper : Option String}
    (h : rangeClause r.timestampColumn lower upper = .ok clause) :
    IsItemChunk model store r row (Filters.boundItem r lower upper) clause :=
  (rangeClause_conjunction h).chunk

/-- A clause that filters compile to has their value. -/
theorem value_of_compile {filters : Filters} (hflat : ∀ item ∈ filters.items, item.IsFlat)
    {trashed : Trashed} (h : compile model r filters = .ok (clause, trashed)) :
    Clause.value (store.holds model r row) clause = filters.value model store r row := by
  obtain ⟨bounds, hbounds, h⟩ := Outcome.bind_eq_ok.mp h
  obtain ⟨_, _, h⟩ := Outcome.bind_eq_ok.mp h
  obtain ⟨items, hitems, h⟩ := Outcome.bind_eq_ok.mp h
  cases h
  obtain ⟨first, hfirst, hbounds⟩ := Outcome.bind_eq_ok.mp hbounds
  obtain ⟨last, hlast, hbounds⟩ := Outcome.bind_eq_ok.mp hbounds
  cases hbounds
  obtain ⟨chunks, hchunks, rfl⟩ := exists_chunks_of_itemsClause hitems
  have hlower : rangeClause r.timestampColumn filters.lower none = .ok first :=
    Outcome.bind_eq_ok.mpr ⟨first, hfirst,
      Outcome.bind_eq_ok.mpr ⟨[], rfl, congrArg Except.ok (List.append_nil first)⟩⟩
  have hupper : rangeClause r.timestampColumn none filters.upper = .ok last :=
    Outcome.bind_eq_ok.mpr ⟨[], rfl, Outcome.bind_eq_ok.mpr ⟨last, hlast, rfl⟩⟩
  have hothers : List.Forall₂ (IsItemChunk model store r row) filters.items chunks :=
    ((List.forall₂_and_left filters.items chunks).mpr ⟨hflat, hchunks⟩).imp
      fun item chunk ⟨hitem, hchunk⟩ => itemClause_chunk hitem hchunk
  have hvalue := value_of_chunks
    (List.Forall₂.cons (boundItem_chunk hlower) (.cons (boundItem_chunk hupper) hothers))
  rw [List.flatten_cons, List.flatten_cons, ← List.append_assoc] at hvalue
  exact hvalue

end Filtering

/-- The group that filters compile to, where they ask for anything, has on every row the value of
the filters; evaluation does not fault. -/
theorem compile_means_value {json : Json} {filters : Filters}
    (hparse : Filters.parse json = .ok filters) {model : Model} {r : Resource} {clause : Clause}
    {trashed : Trashed} (hcompile : Filtering.compile model r filters = .ok (clause, trashed))
    (store : Store) (row : Row) :
    store.satisfies model r row (Clause.addGroup [] .and clause) =
      .ok (filters.value model store r row) := by
  have hresolves := Filtering.compile_resolves hcompile
  have hgroup : Clause.Resolves model r (Clause.addGroup [] .and clause) :=
    (Clause.resolves_addGroup model r [] clause .and).mpr ⟨trivial, hresolves⟩
  have hvalue := Store.value_addGroup model store r row [] clause (List.forall_mem_nil _) hresolves
  rw [Store.satisfies_of_resolves model store r row _ hgroup, hvalue,
    Filtering.value_of_compile (Filters.isFlat_of_parse hparse) hcompile]
  rfl

/-- A post that is too old, but has the title and a comment other than spam.  A range without bounds
asks for nothing, although it is marked `or:`, and so does a group of such ranges. -/
theorem compile_means_value_journal :
    let json : Json := .obj [("from", .str "2024-05-01"),
      ("or:created_at", .obj [("from", .null)]),
      ("or", .obj [("created_at", .obj [("to", .str "")])]),
      ("or:title", .str "Lean"), ("comments.not:body", .str "spam"),
      ("not:comments.post.slug", .arr [.str "b"])]
    let filters : Filters := {
      lower := some "2024-05-01"
      items := [
        .condition ⟨[], ⟨"created_at", false, true⟩⟩ (.range none none),
        .anyOf [.condition ⟨[], ⟨"created_at", false, false⟩⟩ (.range none none)],
        .condition ⟨[], ⟨"title", false, true⟩⟩ (.scalar (.str "Lean")),
        .condition ⟨[⟨"comments", false, false⟩], ⟨"body", true, false⟩⟩ (.scalar (.str "spam")),
        .condition ⟨[⟨"comments", true, false⟩, ⟨"post", false, false⟩], ⟨"slug", false, false⟩⟩
          (.list [.str "b"])] }
    let posts := Config.resolveResource Config.postsDef
    let post : Row := [("id", .int 1), ("slug", .str "a"), ("title", .str "Lean"),
      ("created_at", .str "2023-01-01"), ("deleted_at", .null)]
    let comment : Row := [("id", .int 7), ("post_id", .int 1), ("body", .str "first"),
      ("deleted_at", .null)]
    let store : Store := ⟨[("posts", [post]), ("comments", [comment])]⟩
    Filters.parse json = .ok filters ∧ (filters.asked posts).length = 4 ∧
      filters.value Config.journal store posts post = true ∧
      ∃ clause trashed, Filtering.compile Config.journal posts filters = .ok (clause, trashed) ∧
        store.satisfies Config.journal posts post (Clause.addGroup [] .and clause) =
          .ok (filters.value Config.journal store posts post) := by
  intro json filters posts post comment store
  have hparse : Filters.parse json = .ok filters := rfl
  have hvalue : filters.value Config.journal store posts post = true := by decide +kernel
  have hcompile : Filtering.compile Config.journal posts filters = .ok ([
      (.and, .date "created_at" .lower "2024-05-01"),
      (.or, .condition "title" (.equals (.str "Lean"))),
      (.and, .related "comments" false [(.and, .condition "body" (.differs (.str "spam")))]),
      (.and, .related "comments" true
        [(.and, .related "post" false [(.and, .condition "slug" (.among [.str "b"]))])])],
      .without) := rfl
  exact ⟨hparse, rfl, hvalue, _, _, hcompile, compile_means_value hparse hcompile store post⟩

end Records
