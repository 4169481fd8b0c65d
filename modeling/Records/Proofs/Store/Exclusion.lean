import Records.Proofs.Store.Filtering
import Records.Proofs.Store.ThreeValued

/-!
# Excluding a list that holds a null

In the logic of SQL a negated membership test is never true when its list holds a null, since no
value is known to differ from null (`Test.truth_notAmong_of_null`).  The evaluator takes the null
for a value that agrees with nothing, so that it excludes nothing: such a filter keeps every row
whose column has a value other than those listed, at the end of a path and in a group as well
(`null_excludes_nothing`, `not_excluded_by_null`).
-/

set_option autoImplicit false

namespace Records

/-- Whether a column has a value that agrees with none of a list, nulls in it aside. -/
def Row.isOutside (row : Row) (column : String) (values : List Json) : Bool :=
  (Row.present? row column).any fun value =>
    values.all fun listed => listed.isNull || !value.agrees listed

/-- A column is not known to be outside a list with a null. -/
theorem Test.truth_notAmong_of_null {values : List Json} (h : Json.null ∈ values)
    (value : Option Json) : (Test.notAmong values).truth value ≠ .yes := by
  rw [truth, ne_eq, Truth.not_eq_yes, Truth.any_eq_no]
  intro hall
  have hnull := hall _ (List.mem_map_of_mem h)
  rw [Truth.ofEquality] at hnull
  split at hnull
  · rename_i hpresent
    cases hpresent
  · cases hnull

/-- A negated test against a list with a member passes the rows that are outside it. -/
theorem Store.passesColumn_notAmong {segment : Segment} (hnegated : segment.negated = true)
    {values : List Json} (hvalues : values ≠ []) (row : Row) :
    Store.passesColumn row segment (.list values) = row.isOutside segment.name values := by
  have hempty : values.isEmpty = false := by simpa using hvalues
  have hlisted : ∀ value : Json, (!values.any fun listed => value.agrees listed) =
      values.all fun listed => listed.isNull || !value.agrees listed := by
    intro value
    rw [List.not_any_eq_all_not]
    refine List.all_congr rfl fun listed => ?_
    cases listed with
    | null => simp [Json.isNull, Json.agrees_null_right]
    | _ => rfl
  simp only [passesColumn, hnegated, if_true, Test.passes, hempty, Bool.false_or, hlisted]
  rfl

/-! ## One item alone -/

namespace Filters

/-- Filters of one item that asks for something have the value of that item. -/
theorem value_of_singleton {model : Model} {store : Store} {r : Resource} {row : Row}
    {item : FilterItem} (h : item.isVacuous = false) :
    Filters.value model store r row { items := [item] } = store.passesItem model r row item := by
  have hasked : Filters.asked r { items := [item] } = [item] := by
    rw [asked]
    simp [boundItem, FilterItem.isVacuous, Operand.isUnbounded, h]
  rw [value, hasked]
  simp [joinedRuns, splitLeadingRun]

end Filters

/-- Filters of one condition compile to its entries, for the rows that are not trashed. -/
theorem Filtering.compile_single {model : Model} {r : Resource} (path : FilterPath)
    (operand : Operand) :
    compile model r { items := [.condition path operand] } =
      (pathClause model r path.column operand .and path.relations).map fun clause =>
        (clause, .without) := by
  show (itemsClause model r .and [.condition path operand]).map (fun clause =>
    (([] : Clause) ++ clause, Trashed.without)) = _
  simp only [itemsClause, itemClause]
  cases pathClause model r path.column operand .and path.relations with
  | error why => rfl
  | ok clause => simp [bind, Except.bind, pure, Except.pure, Except.map]

namespace Store

variable {model : Model} {store : Store} {r : Resource} {row : Row}

/-- A group holds by one of its members that asks for something, or by the others. -/
theorem passesSome_middle {item : FilterItem} (h : item.isVacuous = false)
    (before after : List FilterItem) :
    store.passesSome model r row (before ++ item :: after) =
      (store.passesItem model r row item || store.passesSome model r row (before ++ after)) := by
  simp only [Filtering.passesSome_eq_any, List.filter_append, List.filter_cons, h, Bool.not_false,
    if_true, List.any_append, List.any_cons]
  cases store.passesItem model r row item <;> simp

/-- What an accepted filter of one item is satisfied by. -/
theorem satisfies_of_singleton {json : Json} {item : FilterItem}
    (hparse : Filters.parse json = .ok { items := [item] }) (hasks : item.isVacuous = false)
    {clause : Clause} {trashed : Trashed}
    (hcompile : Filtering.compile model r { items := [item] } = .ok (clause, trashed)) :
    store.satisfies model r row clause = .ok (store.passesItem model r row item) := by
  rw [satisfies_of_resolves model store r row _ (Filtering.compile_resolves hcompile),
    Filtering.value_of_compile (Filters.isFlat_of_parse hparse) hcompile,
    Filters.value_of_singleton hasks]

end Store

/-! ## Reading the filter -/

/-- A field that is no bound and no trash switch is read as the only item. -/
theorem Filters.parse_singleton {name : String} {json : Json} (hlower : name ≠ "from")
    (hupper : name ≠ "to") (htrashed : asksTrashed [(name, json)] = false) :
    Filters.parse (.obj [(name, json)]) =
      (FilterItem.parse (name, json)).map fun item => { items := [item] } := by
  have hfrom : Fields.get? [(name, json)] "from" = none := by simp [Fields.get?, hlower]
  have hto : Fields.get? [(name, json)] "to" = none := by simp [Fields.get?, hupper]
  have hfields : ([(name, json)].filter fun field => isItem false field.1) = [(name, json)] := by
    simp [isItem, hlower, hupper]
  rw [parse, hfrom, hto, htrashed]
  simp only [hfields, List.mapM_cons, List.mapM_nil]
  cases FilterItem.parse (name, json) <;> rfl

namespace FilterItem

variable {key : String} {path : FilterPath} {values : List Json}

/-- A list of scalars is read as a list operand. -/
theorem parseCondition_list (hkey : FilterPath.parse key = .ok path)
    (hscalars : values.any Json.isCompound = false) :
    parseCondition (key, .arr values) = .ok (.condition path (.list values)) := by
  have hoperand : Operand.parse key (.arr values) = .ok (.list values) := by
    rw [Operand.parse, hscalars]
    rfl
  rw [parseCondition, Outcome.bind_of_ok hkey, Outcome.bind_of_ok hoperand]
  rfl

/-- A filter of a single negated list is read as one condition. -/
theorem parse_single (hkey : FilterPath.parse key = .ok path)
    (hnegated : path.column.negated = true) (hscalars : values.any Json.isCompound = false) :
    Filters.parse (.obj [(key, .arr values)]) =
      .ok { items := [.condition path (.list values)] } := by
  -- the names of the bounds have no mark
  have hplain : ∀ name, FilterPath.parse name = .ok ⟨[], ⟨name, false, false⟩⟩ → key ≠ name := by
    rintro name hname rfl
    rw [hname] at hkey
    cases hkey
    cases hnegated
  have htrashed : Filters.asksTrashed [(key, .arr values)] = false := by
    rw [Filters.asksTrashed]
    by_cases hstatus : key = "status" <;> simp [Fields.get?, hstatus, Json.str?]
  have hitem : FilterItem.parse (key, .arr values) = .ok (.condition path (.list values)) :=
    parseCondition_list hkey hscalars
  rw [Filters.parse_singleton (hplain "from" rfl) (hplain "to" rfl) htrashed, hitem]
  rfl

/-- A list among the members of an `or` group is read as one condition among the others. -/
theorem parse_group (hkey : FilterPath.parse key = .ok path)
    (hscalars : values.any Json.isCompound = false) {before after : Fields}
    (hmembers : hasDayBounds (before ++ (key, .arr values) :: after) = false)
    {first last : List FilterItem} (hbefore : before.mapM parseMember = .ok first)
    (hafter : after.mapM parseMember = .ok last) :
    Filters.parse (.obj [("or", .obj (before ++ (key, .arr values) :: after))]) =
      .ok { items := [.anyOf (first ++ .condition path (.list values) :: last)] } := by
  have hall : (before ++ (key, .arr values) :: after).mapM parseMember =
      .ok (first ++ .condition path (.list values) :: last) :=
    Outcome.mapM_eq_ok.mpr (List.rel_append (Outcome.mapM_eq_ok.mp hbefore)
      (.cons (parseCondition_list hkey hscalars) (Outcome.mapM_eq_ok.mp hafter)))
  rw [Filters.parse_singleton (by decide) (by decide) rfl]
  simp only [FilterItem.parse, members?, hmembers, Bool.not_false, and_self, if_true, hall]
  rfl

end FilterItem

/-- A filter that excludes a list with a null, of scalars, on a column or at the end of a path, is
satisfied by the rows whose column, or that of a row which the path leads to, has a value outside
the list; in an `or` group it holds of the same rows.  In the logic of SQL it is true of none. -/
theorem null_excludes_nothing {key : String} {path : FilterPath}
    (hkey : FilterPath.parse key = .ok path) (hnegated : path.column.negated = true)
    {values : List Json} (hscalars : values.any Json.isCompound = false)
    (hnull : Json.null ∈ values) (model : Model) (store : Store) (r : Resource) (row : Row) :
    (∀ child, Store.passesColumn child path.column (.list values) =
        Row.isOutside child path.column.name values) ∧
    (∃ filters, Filters.parse (.obj [(key, .arr values)]) = .ok filters ∧
      ∀ clause trashed, Filtering.compile model r filters = .ok (clause, trashed) →
        store.satisfies model r row clause =
          .ok (store.passesPath model r row path.column (.list values) path.relations)) ∧
    (∀ before after first last, before.mapM FilterItem.parseMember = .ok first →
      after.mapM FilterItem.parseMember = .ok last →
      hasDayBounds (before ++ (key, .arr values) :: after) = false →
      ∃ filters,
        Filters.parse (.obj [("or", .obj (before ++ (key, .arr values) :: after))]) =
            .ok filters ∧
          ∀ clause trashed, Filtering.compile model r filters = .ok (clause, trashed) →
            store.satisfies model r row clause =
              .ok (store.passesPath model r row path.column (.list values) path.relations ||
                store.passesSome model r row (first ++ last))) ∧
    ∀ value, (Test.notAmong values).truth value ≠ .yes := by
  have hasks : (FilterItem.condition path (.list values)).isVacuous = false := by
    simp [FilterItem.isVacuous, Operand.isUnbounded]
  refine ⟨Store.passesColumn_notAmong hnegated (List.ne_nil_of_mem hnull), ?_, ?_,
    Test.truth_notAmong_of_null hnull⟩
  · have hparse := FilterItem.parse_single hkey hnegated hscalars
    refine ⟨_, hparse, fun clause trashed hcompile => ?_⟩
    rw [Store.satisfies_of_singleton hparse hasks hcompile, Store.passesItem]
  · intro before after first last hbefore hafter hmembers
    have hparse := FilterItem.parse_group hkey hscalars hmembers hbefore hafter
    -- a group with an item that asks for something does so itself
    have hgroup : (FilterItem.anyOf (first ++ .condition path (.list values) :: last)).isVacuous =
        false := by
      rw [FilterItem.isVacuous, Filtering.areVacuous_eq_all, List.all_append, List.all_cons, hasks,
        Bool.false_and, Bool.and_false]
    refine ⟨_, hparse, fun clause trashed hcompile => ?_⟩
    rw [Store.satisfies_of_singleton hparse hgroup hcompile, Store.passesItem,
      Store.passesSome_middle hasks, Store.passesItem]

/-- A post that has a comment other than those listed, and a null is listed with them; in a group
the other member is not needed. -/
theorem null_excludes_nothing_journal :
    let posts := Config.resolveResource Config.postsDef
    let key := "comments.not:body"
    let values : List Json := [.null, .str "spam"]
    let post : Row := [("id", .int 1), ("title", .str "Lean")]
    let spam : Row := [("id", .int 6), ("post_id", .int 1), ("body", .str "spam")]
    let comment : Row := [("id", .int 7), ("post_id", .int 1), ("body", .str "first")]
    let store : Store := ⟨[("posts", [post]), ("comments", [spam, comment])]⟩
    (∃ filters clause trashed, Filters.parse (.obj [(key, .arr values)]) = .ok filters ∧
      Filtering.compile Config.journal posts filters = .ok (clause, trashed) ∧
      store.satisfies Config.journal posts post clause = .ok true) ∧
    (∃ filters clause trashed,
      Filters.parse (.obj [("or", .obj [("title", .str "other"), (key, .arr values)])]) =
          .ok filters ∧
        Filtering.compile Config.journal posts filters = .ok (clause, trashed) ∧
        store.satisfies Config.journal posts post clause = .ok true) ∧
    (Test.notAmong values).truth (some (.str "first")) ≠ .yes := by
  have hkey : FilterPath.parse "comments.not:body" =
      .ok ⟨[⟨"comments", false, false⟩], ⟨"body", true, false⟩⟩ := rfl
  have hother : [("title", Json.str "other")].mapM FilterItem.parseMember =
      .ok [.condition ⟨[], ⟨"title", false, false⟩⟩ (.scalar (.str "other"))] := rfl
  intro posts key values post spam comment store
  have hscalars : values.any Json.isCompound = false := rfl
  obtain ⟨_, ⟨single, hsingle, hvalue⟩, hgroups, htruth⟩ := null_excludes_nothing hkey rfl hscalars
    List.mem_cons_self Config.journal store posts post
  obtain ⟨group, hgroup, hvalues⟩ := hgroups _ [] _ [] hother rfl rfl
  have hpasses : store.passesPath Config.journal posts post ⟨"body", true, false⟩ (.list values)
      [⟨"comments", false, false⟩] = true := by decide +kernel
  rw [hpasses] at hvalue
  rw [hpasses, Bool.true_or] at hvalues
  have hread := Except.ok.inj (hsingle.symm.trans (FilterItem.parse_single hkey rfl hscalars))
  have hreads := Except.ok.inj
    (hgroup.symm.trans (FilterItem.parse_group hkey hscalars rfl hother rfl))
  obtain ⟨_, _, hcompile⟩ : ∃ clause trashed,
      Filtering.compile Config.journal posts single = .ok (clause, trashed) := by
    rw [hread]
    exact ⟨_, _, rfl⟩
  obtain ⟨_, _, hcompiles⟩ : ∃ clause trashed,
      Filtering.compile Config.journal posts group = .ok (clause, trashed) := by
    rw [hreads]
    exact ⟨_, _, rfl⟩
  exact ⟨⟨_, _, _, hsingle, hcompile, hvalue _ _ hcompile⟩,
    ⟨_, _, _, hgroup, hcompiles, hvalues _ _ hcompiles⟩, htruth _⟩

/-- A row with another title passes a filter that excludes a title and null, which in the logic of
SQL is unknown. -/
theorem not_excluded_by_null :
    let posts := Config.resolveResource Config.postsDef
    let values : List Json := [.str "other", .null]
    let post : Row := [("id", .int 1), ("title", .str "kept")]
    let store : Store := ⟨[("posts", [post])]⟩
    ∃ filters clause trashed, Filters.parse (.obj [("not:title", .arr values)]) = .ok filters ∧
      Filtering.compile Config.journal posts filters = .ok (clause, trashed) ∧
      store.satisfies Config.journal posts post clause = .ok true ∧
      store.clauseTruth Config.journal posts post clause = .unknown := by
  have hparse : Filters.parse (.obj [("not:title", .arr [.str "other", .null])]) =
      .ok { items := [.condition ⟨[], ⟨"title", true, false⟩⟩ (.list [.str "other", .null])] } :=
    rfl
  intro posts values post store
  have hcompile : Filtering.compile Config.journal posts
      { items := [.condition ⟨[], ⟨"title", true, false⟩⟩ (.list values)] } =
        .ok ([(.and, .condition "title" (.notAmong values))], .without) := rfl
  have hpasses : (Test.notAmong values).passes (some (.str "kept")) = true := by decide +kernel
  have htruth : store.clauseTruth Config.journal posts post
      [(.and, .condition "title" (.notAmong values))] = .unknown := by decide +kernel
  exact ⟨_, _, _, hparse, hcompile, congrArg Except.ok hpasses, htruth⟩

end Records
