import Records.Proofs.Sql.Meaning
import Records.Proofs.Sql.Writes

/-!
# The steps of a statement

What each step of building a statement gives where it succeeds: the condition, the values bound and
the aliases in use after it.  Tests bind their values in order (`testCondition_built`), a select of
related rows takes the next alias before its own condition is built (`related_built`), and a page
binds its two numbers last (`pageOf_built`).
-/

set_option autoImplicit false

namespace Records.Sql

variable {α β : Type} {model : Model} {r : Resource} {owner : Alias} {s s' : Bindings}

/-- A sequence of two steps gives a result exactly when both do, the second on what the first
leaves. -/
theorem bind_eq_ok {m : Binder α} {f : α → Binder β} {out : β} :
    (m >>= f) s = .ok (out, s') ↔ ∃ a t, m s = .ok (a, t) ∧ f a t = .ok (out, s') := by
  show (m s >>= fun step => f step.1 step.2) = _ ↔ _
  rw [Outcome.bind_eq_ok]
  exact ⟨fun ⟨step, hm, hf⟩ => ⟨step.1, step.2, hm, hf⟩, fun ⟨a, t, hm, hf⟩ => ⟨(a, t), hm, hf⟩⟩

/-- The bindings after some more values. -/
def Bindings.bound (s : Bindings) (values : List BindValue) : Bindings :=
  { s with values := s.values ++ values }

/-- The bindings after one more alias. -/
def Bindings.aliased (s : Bindings) : Bindings := { s with aliases := s.aliases + 1 }

/-- As many values are bound as were before and are added. -/
@[simp] theorem Bindings.length_bound (s : Bindings) (values : List BindValue) :
    (s.bound values).values.length = s.values.length + values.length :=
  List.length_append

/-- Binding no values changes nothing. -/
@[simp] theorem Bindings.bound_nil (s : Bindings) : s.bound [] = s := by
  rw [bound, List.append_nil]

/-- Values bound in two steps are bound in their order. -/
@[simp] theorem Bindings.bound_bound (s : Bindings) (first last : List BindValue) :
    (s.bound first).bound last = s.bound (first ++ last) := by
  rw [bound, bound, bound, List.append_assoc]

/-- The placeholders of a column for some values in turn, after a number of bound values. -/
def repeated (r : Resource) (column : String) (bound count : Nat) : List Placeholder :=
  (List.range' (bound + 1) count).map fun number => ⟨number, r.columnType? column⟩

/-- The value of a column is bound to the next number, under the column's type. -/
theorem bindColumn_eq (r : Resource) (column : String) (value : Json) (s : Bindings) :
    bindColumn r column value s =
      .ok (⟨s.values.length + 1, r.columnType? column⟩,
        s.bound [boundValue r (column, value)]) := by
  rw [bindColumn, boundValue]
  cases r.columnType? column <;> rfl

/-- Values of one column are bound to the next numbers in turn. -/
theorem bindColumns_eq (r : Resource) (column : String) (values : List Json) (s : Bindings) :
    values.mapM (bindColumn r column) s =
      .ok (repeated r column s.values.length values.length,
        s.bound (values.map fun value => boundValue r (column, value))) := by
  induction values generalizing s with
  | nil => exact congrArg (fun t => Except.ok ([], t)) s.bound_nil.symm
  | cons value rest ih =>
    rw [List.mapM_cons, bind_of_ok (bindColumn_eq r column value s), bind_of_ok (ih _),
      Bindings.bound_bound, Bindings.length_bound]
    rfl

/-- What a test of a column becomes: the condition, and the bindings before and after it. -/
inductive TestBuilt (r : Resource) (column : ColumnRef) :
    Bindings → Condition → Bindings → Prop where
  | isNull (s : Bindings) (negated : Bool) : TestBuilt r column s (.isNull column negated) s
  | constant (s : Bindings) (holds : Bool) : TestBuilt r column s (.constant holds) s
  | equals (s : Bindings) (negated : Bool) (value : BindValue) :
    TestBuilt r column s
      (.equals column negated ⟨s.values.length + 1, r.columnType? column.column⟩) (s.bound [value])
  | member (s : Bindings) (negated : Bool) (values : List BindValue) :
    TestBuilt r column s
      (.member column negated (repeated r column.column s.values.length values.length))
      (s.bound values)

/-- What a test for a value builds. -/
theorem equals_built {column : ColumnRef} {negated : Bool} {value : Json} {condition : Condition}
    (h : (do return .equals column negated (← bindColumn r column.column value) :
      Binder Condition) s = .ok (condition, s')) : TestBuilt r column s condition s' := by
  rw [bind_of_ok (bindColumn_eq r column.column value s)] at h
  cases h
  exact .equals s negated _

/-- What a test for values of a list builds. -/
theorem member_built {column : ColumnRef} {negated : Bool} {values : List Json}
    {condition : Condition}
    (h : (do return .member column negated (← values.mapM (bindColumn r column.column)) :
      Binder Condition) s = .ok (condition, s')) : TestBuilt r column s condition s' := by
  rw [bind_of_ok (bindColumns_eq r column.column values s)] at h
  cases h
  have hlength := values.length_map fun value => boundValue r (column.column, value)
  rw [← hlength]
  exact .member s negated _

/-- What a test of a column builds. -/
theorem testCondition_built {column : String} {test : Test} {condition : Condition}
    (h : testCondition r owner column test s = .ok (condition, s')) :
    TestBuilt r ⟨owner, column⟩ s condition s' := by
  cases test with
  | equals value =>
    cases value with
    | null =>
      cases h
      exact .isNull s false
    | _ => exact equals_built h
  | differs value =>
    cases value with
    | null =>
      cases h
      exact .isNull s true
    | _ => exact equals_built h
  | among values =>
    rw [testCondition] at h
    split at h
    · cases h
      exact .constant s false
    · exact member_built h
  | notAmong values =>
    rw [testCondition] at h
    split at h
    · cases h
      exact .constant s true
    · exact member_built h

/-- What was found is passed on, and nothing is bound. -/
theorem liftFault_eq_ok {result : Except Fault α} {a : α} :
    liftFault result s = .ok (a, s') ↔ result = .ok a ∧ s' = s := by
  rw [liftFault, Outcome.map_eq_ok]
  constructor
  · rintro ⟨b, hresult, hout⟩
    obtain ⟨rfl, rfl⟩ := Prod.mk.inj hout
    exact ⟨hresult, rfl⟩
  · rintro ⟨hresult, rfl⟩
    exact ⟨a, hresult, rfl⟩

/-- A select of related rows begins with its relation, and then takes the next alias. -/
theorem select_eq_ok {name : String} {f : Relation × Resource → Binder β}
    {g : Relation → Resource → Alias → Binder β} {out : β}
    (h : (liftFault (model.related r name) >>= f) s = .ok (out, s'))
    (hf : ∀ relation target, f (relation, target) = freshAlias >>= g relation target) :
    ∃ relation target, model.related r name = .ok (relation, target) ∧
      g relation target (.nested (s.aliases + 1)) s.aliased = .ok (out, s') := by
  obtain ⟨⟨relation, target⟩, t, hlifted, hselect⟩ := bind_eq_ok.mp h
  obtain ⟨hrelated, rfl⟩ := liftFault_eq_ok.mp hlifted
  rw [hf] at hselect
  exact ⟨relation, target, hrelated, hselect⟩

/-- What a predicate on related rows builds: its scope under the next alias, and the conditions on
its rows. -/
theorem related_built {name : String} {negated : Bool} {clause : Clause} {condition : Condition}
    (h : predicateCondition model r owner (.related name negated clause) s =
      .ok (condition, s')) :
    ∃ relation target inner, model.related r name = .ok (relation, target) ∧
      clauseConditions model target (.nested (s.aliases + 1)) clause s.aliased = .ok (inner, s') ∧
      condition =
        .existsRow negated (scopeOf relation target owner (.nested (s.aliases + 1))) inner := by
  rw [predicateCondition] at h
  obtain ⟨relation, target, hrelated, h⟩ := select_eq_ok h fun _ _ => rfl
  obtain ⟨inner, t, hinner, h⟩ := bind_eq_ok.mp h
  cases h
  exact ⟨relation, target, inner, hrelated, hinner, rfl⟩

/-- What a bound on a count builds: its scope under the next alias, and one value. -/
theorem count_built {name : String} {comparator : CountComparator} {count : Int}
    {condition : Condition}
    (h : predicateCondition model r owner (.count name comparator count) s =
      .ok (condition, s')) :
    ∃ relation target, model.related r name = .ok (relation, target) ∧
      condition = .countRows (scopeOf relation target owner (.nested (s.aliases + 1))) comparator
        (s.values.length + 1) ∧
      s' = s.aliased.bound [.int count] := by
  rw [predicateCondition] at h
  obtain ⟨relation, target, hrelated, h⟩ := select_eq_ok h fun _ _ => rfl
  cases h
  exact ⟨relation, target, hrelated, rfl, rfl⟩

/-- What a group builds: the conditions of its clause. -/
theorem group_built {clause : Clause} {condition : Condition}
    (h : predicateCondition model r owner (.group clause) s = .ok (condition, s')) :
    ∃ inner, clauseConditions model r owner clause s = .ok (inner, s') ∧
      condition = .group inner := by
  rw [predicateCondition] at h
  obtain ⟨inner, t, hinner, h⟩ := bind_eq_ok.mp h
  cases h
  exact ⟨inner, hinner, rfl⟩

/-- What a clause builds: the condition of its first entry, and then those of the others. -/
theorem entry_built {joiner : Joiner} {predicate : Predicate} {rest : Clause}
    {conditions : List (Joiner × Condition)}
    (h : clauseConditions model r owner ((joiner, predicate) :: rest) s = .ok (conditions, s')) :
    ∃ first t others, predicateCondition model r owner predicate s = .ok (first, t) ∧
      clauseConditions model r owner rest t = .ok (others, s') ∧
      conditions = (joiner, first) :: others := by
  rw [clauseConditions] at h
  obtain ⟨first, t, hfirst, h⟩ := bind_eq_ok.mp h
  obtain ⟨others, t', hothers, h⟩ := bind_eq_ok.mp h
  cases h
  exact ⟨first, t, others, hfirst, hothers, rfl⟩

/-- What the relations shown build: a select under the next alias for the first, and then the
others. -/
theorem embedded_built {name : String} {rest : List String} {embedded : List Embedded}
    (h : embeddedOf model r (name :: rest) s = .ok (embedded, s')) :
    ∃ relation target others, model.related r name = .ok (relation, target) ∧
      embeddedOf model r rest s.aliased = .ok (others, s') ∧
      embedded = ⟨name, relation.isMany,
        scopeOf relation target .main (.nested (s.aliases + 1))⟩ :: others := by
  rw [embeddedOf] at h
  obtain ⟨relation, target, hrelated, h⟩ := select_eq_ok h fun _ _ => rfl
  obtain ⟨others, t, hothers, h⟩ := bind_eq_ok.mp h
  cases h
  exact ⟨relation, target, others, hrelated, hothers, rfl⟩

/-- Selects that are shown bind no values. -/
theorem values_of_embeddedOf {names : List String} {embedded : List Embedded}
    (h : embeddedOf model r names s = .ok (embedded, s')) : s'.values = s.values := by
  induction names generalizing s embedded with
  | nil =>
    cases h
    rfl
  | cons name rest ih =>
    obtain ⟨relation, target, others, _, hothers, _⟩ := embedded_built h
    exact (ih hothers).trans rfl

/-- What the restriction of a query builds: the test on its trash mark and the conditions of its
clause. -/
theorem restriction_built {query : Query} {restriction : Restriction}
    (h : restrictionOf model r query s = .ok (restriction, s')) :
    ∃ conditions, clauseConditions model r .main query.clause s = .ok (conditions, s') ∧
      restriction = ⟨markOf r query.trashed, conditions⟩ := by
  rw [restrictionOf] at h
  obtain ⟨conditions, t, hconditions, h⟩ := bind_eq_ok.mp h
  cases h
  exact ⟨conditions, hconditions, rfl⟩

/-- The parts that the statements of a query have in common. -/
structure Parts (model : Model) (query : Query) where
  resource : Resource
  restriction : Restriction
  /-- The bindings after the restriction. -/
  counted : Bindings
  embedded : List Embedded
  /-- The bindings after the selects that are shown. -/
  shown : Bindings
  requires : model.requireResource query.resource = .ok resource
  restricts : restrictionOf model resource query {} = .ok (restriction, counted)
  embeds : embeddedOf model resource query.eager counted = .ok (embedded, shown)

/-- The selection of a query with some extent. -/
def Parts.selection {query : Query} (parts : Parts model query) (extent : Extent) : Selection :=
  ⟨tableOf parts.resource, query.columns, parts.embedded, parts.restriction, query.order, extent⟩

/-- The first statement is made of parts that were built one after the other. -/
theorem firstOf_built {query : Query} {first : Bound Selection}
    (h : firstOf model query = .ok first) :
    ∃ parts : Parts model query, first = ⟨parts.selection .first, parts.shown.values⟩ := by
  obtain ⟨r, hr, h⟩ := Outcome.bind_eq_ok.mp h
  obtain ⟨⟨restriction, counted⟩, hrestriction, h⟩ := Outcome.bind_eq_ok.mp h
  obtain ⟨⟨embedded, shown⟩, hembedded, h⟩ := Outcome.bind_eq_ok.mp h
  cases h
  exact ⟨⟨r, restriction, counted, embedded, shown, hr, hrestriction, hembedded⟩, rfl⟩

/-- A number that is taken is taken as it is. -/
theorem eq_of_int64OrFault {why : Invalid} {n : Nat} {k : Int}
    (h : int64OrFault why n = .ok k) : k = n := by
  rw [int64OrFault] at h
  split at h
  · exact (Except.ok.inj h).symm
  · cases h

/-- The page and count statements are made of parts that were built one after the other. -/
theorem pageOf_built {query : Query} {paging : Paging} {page : Bound Selection}
    {tally : Bound Tally} (h : pageOf model query paging = .ok (page, tally)) :
    ∃ parts : Parts model query,
      page = ⟨parts.selection (.window (parts.counted.values.length + 1)
          (parts.counted.values.length + 2)),
        parts.counted.values ++ [.int paging.perPage, .int paging.offset]⟩ ∧
      tally = ⟨⟨tableOf parts.resource, parts.restriction⟩, parts.counted.values⟩ := by
  obtain ⟨r, hr, h⟩ := Outcome.bind_eq_ok.mp h
  obtain ⟨⟨restriction, counted⟩, hrestriction, h⟩ := Outcome.bind_eq_ok.mp h
  obtain ⟨⟨embedded, shown⟩, hembedded, h⟩ := Outcome.bind_eq_ok.mp h
  obtain ⟨perPage, hperPage, h⟩ := Outcome.bind_eq_ok.mp h
  obtain ⟨skip, hskip, h⟩ := Outcome.bind_eq_ok.mp h
  have hvalues : shown.values = counted.values := values_of_embeddedOf hembedded
  cases eq_of_int64OrFault hperPage
  cases eq_of_int64OrFault hskip
  cases h
  refine ⟨⟨r, restriction, counted, embedded, shown, hr, hrestriction, hembedded⟩, ?_, rfl⟩
  simp [Parts.selection, hvalues]

end Records.Sql
