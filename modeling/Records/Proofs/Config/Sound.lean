import Mathlib.Data.List.Nodup
import Records.Config.Resolve
import Records.Proofs.Outcome

/-!
# Resolved models

When a name is found in a model, and what the check of definitions leaves behind in it: names of
resources are distinct, and every relation leads to a resource of the model (`sound_of_resolve`), so
that a name stands for the relation that is declared under it (`related_iff_of_resolve`).
-/

set_option autoImplicit false

namespace Records

/-! ### Looking up by name -/

/-- Where names are distinct, a look-up finds exactly what is listed under a name. -/
theorem find?_name_eq_some_iff {α : Type} {nameOf : α → String} {l : List α}
    (distinct : (l.map nameOf).Nodup) {name : String} {a : α} :
    l.find? (fun other => nameOf other == name) = some a ↔ a ∈ l ∧ nameOf a = name := by
  constructor
  · intro h
    exact ⟨List.mem_of_find?_eq_some h, by simpa using List.find?_some h⟩
  · rintro ⟨ha, rfl⟩
    have hfound : (l.find? fun other => nameOf other == nameOf a).isSome = true := by
      rw [List.find?_isSome]
      exact ⟨a, ha, by simp⟩
    obtain ⟨first, hfirst⟩ := Option.isSome_iff_exists.mp hfound
    have hname : nameOf first = nameOf a := by simpa using List.find?_some hfirst
    rw [hfirst, List.inj_on_of_nodup_map distinct (List.mem_of_find?_eq_some hfirst) ha hname]

section

variable {model : Model} {r : Resource} {name : String}

/-- Requiring a column gives the column that looking it up gives. -/
theorem Resource.requireColumn_eq_ok {column : Column} :
    r.requireColumn name = .ok column ↔ r.column? name = some column := by
  rw [requireColumn]
  cases r.column? name <;> simp

/-- Requiring a relation gives the relation that looking it up gives. -/
theorem Resource.requireRelation_eq_ok {relation : Relation} :
    r.requireRelation name = .ok relation ↔ r.relation? name = some relation := by
  rw [requireRelation]
  cases r.relation? name <;> simp

/-- A required relation is found exactly when the list names it. -/
theorem Resource.exists_requireRelation_iff :
    (∃ relation, r.requireRelation name = .ok relation) ↔
      name ∈ r.relations.map Relation.name := by
  simp only [requireRelation_eq_ok, relation?, ← Option.isSome_iff_exists, List.find?_isSome,
    List.mem_map, beq_iff_eq]

/-- Requiring a resource gives the resource that looking it up gives. -/
theorem Model.requireResource_eq_ok :
    model.requireResource name = .ok r ↔ model.resource? name = some r := by
  rw [requireResource]
  cases model.resource? name <;> simp

/-- The column found has the name it was looked up by. -/
theorem Resource.name_of_requireColumn {column : Column}
    (h : r.requireColumn name = .ok column) : column.name = name := by
  simpa using List.find?_some (requireColumn_eq_ok.mp h)

/-- The relation found has the name it was looked up by. -/
theorem Resource.name_of_requireRelation {relation : Relation}
    (h : r.requireRelation name = .ok relation) : relation.name = name := by
  simpa using List.find?_some (requireRelation_eq_ok.mp h)

/-- The resource found has the name it was looked up by. -/
theorem Model.name_of_requireResource (h : model.requireResource name = .ok r) :
    r.name = name := by
  simpa using List.find?_some (requireResource_eq_ok.mp h)

/-- A relation resolves when it is there and the resource that it leads to is. -/
theorem Model.related_eq_ok {relation : Relation} {target : Resource} :
    model.related r name = .ok (relation, target) ↔
      r.relation? name = some relation ∧ model.resource? relation.related = some target := by
  rw [related, Outcome.bind_eq_ok]
  constructor
  · rintro ⟨found, hfound, h⟩
    obtain ⟨resource, hresource, h⟩ := Outcome.bind_eq_ok.mp h
    cases h
    exact ⟨Resource.requireRelation_eq_ok.mp hfound, requireResource_eq_ok.mp hresource⟩
  · rintro ⟨hrelation, htarget⟩
    exact ⟨relation, Resource.requireRelation_eq_ok.mpr hrelation,
      Outcome.bind_eq_ok.mpr ⟨target, requireResource_eq_ok.mpr htarget, rfl⟩⟩

/-- The resource found is one of the model's. -/
theorem Model.mem_of_requireResource (h : model.requireResource name = .ok r) :
    r ∈ model.resources :=
  List.mem_of_find?_eq_some (requireResource_eq_ok.mp h)

/-- The target of a relation that was followed is one of the model's resources. -/
theorem Model.mem_of_related {target : Resource} {relation : Relation}
    (h : model.related r name = .ok (relation, target)) : target ∈ model.resources :=
  List.mem_of_find?_eq_some (related_eq_ok.mp h).2

end

/-- The names of a model say which resource is meant. -/
structure Model.Sound (model : Model) : Prop where
  distinct : (model.resources.map Resource.name).Nodup
  targets : ∀ r ∈ model.resources, ∀ relation ∈ r.relations,
    ∃ target, model.resource? relation.related = some target

namespace Config

/-- No repeated name is found exactly when the names differ from each other and from those seen
before. -/
theorem repeated?_eq_none_iff (seen names : List String) :
    repeated? seen names = none ↔ names.Nodup ∧ ∀ name ∈ names, name ∉ seen := by
  induction names generalizing seen with
  | nil => simp [repeated?]
  | cons name rest ih =>
    rw [repeated?, List.nodup_cons, List.forall_mem_cons]
    by_cases hseen : name ∈ seen
    · simp [hseen]
    · rw [if_neg (by simpa using hseen), ih]
      constructor
      · rintro ⟨hrest, hfresh⟩
        refine ⟨⟨fun hmem => hfresh name hmem List.mem_cons_self, hrest⟩, hseen, ?_⟩
        exact fun other hother hin => hfresh other hother (List.mem_cons_of_mem _ hin)
      · rintro ⟨⟨hname, hrest⟩, _, hfresh⟩
        refine ⟨hrest, fun other hother hin => ?_⟩
        rcases List.mem_cons.mp hin with rfl | hin
        · exact hname hother
        · exact hfresh other hother hin

/-- A definition's column is accepted exactly when the definition knows it. -/
theorem requireColumn_eq_ok {rdef : ResourceDef} {name : String} :
    requireColumn rdef name = .ok () ↔ name ∈ rdef.columnNames := by
  rw [requireColumn]
  split
  · rename_i h
    simpa using h
  · rename_i h
    simpa using h

/-- The relations that pass the check have names of their own, and each leads from a column of its
resource to a column of a resource that is defined. -/
theorem checkRelations_eq_ok (defs : Definitions) (r : ResourceDef) (seen : List String)
    (relations : List RelationDef) :
    checkRelations defs r seen relations = .ok () ↔
      (relations.map RelationDef.name).Nodup ∧ ∀ d ∈ relations, d.name ∉ seen ∧
        ∃ target, defs.find? d.resource = some target ∧ d.localKey ∈ r.columnNames ∧
          d.foreignKey ∈ target.columnNames := by
  induction relations generalizing seen with
  | nil => simp [checkRelations]
  | cons d rest ih =>
    rw [checkRelations, List.map_cons, List.nodup_cons, List.forall_mem_cons]
    by_cases hseen : d.name ∈ seen
    · simp [hseen, bind, Except.bind, throw, throwThe, MonadExceptOf.throw]
    cases htarget : defs.find? d.resource with
    | none => simp [hseen, throw, throwThe, MonadExceptOf.throw]
    | some target =>
      have hstep : (d.name ∉ seen ∧ ∃ found, some target = some found ∧
          d.localKey ∈ r.columnNames ∧ d.foreignKey ∈ found.columnNames) ↔
            d.localKey ∈ r.columnNames ∧ d.foreignKey ∈ target.columnNames := by
        simp [hseen]
      rw [if_neg (by simpa using hseen), hstep]
      show (requireColumn r d.localKey >>= fun _ => requireColumn target d.foreignKey >>= fun _ =>
        checkRelations defs r (d.name :: seen) rest) = .ok () ↔ _
      simp only [Outcome.check_bind_eq_ok, requireColumn_eq_ok, ih, List.mem_cons, not_or]
      constructor
      · rintro ⟨hlocal, hforeign, hrest, hothers⟩
        -- the name is among those seen by the rest, so it is not repeated there
        refine ⟨⟨?_, hrest⟩, ⟨hlocal, hforeign⟩, fun other hother => ?_⟩
        · intro hmem
          obtain ⟨other, hother, hname⟩ := List.mem_map.mp hmem
          exact (hothers other hother).1.1 hname
        · obtain ⟨⟨_, hfresh⟩, hjoined⟩ := hothers other hother
          exact ⟨hfresh, hjoined⟩
      · rintro ⟨⟨hname, hrest⟩, ⟨hlocal, hforeign⟩, hothers⟩
        refine ⟨hlocal, hforeign, hrest, fun other hother => ?_⟩
        obtain ⟨hfresh, hjoined⟩ := hothers other hother
        exact ⟨⟨fun heq => hname (heq ▸ List.mem_map_of_mem hother), hfresh⟩, hjoined⟩

/-- The relations that pass the check lead to resources that are defined. -/
theorem target_of_checkRelations {defs : Definitions} {r : ResourceDef}
    (h : checkRelations defs r [] r.relations = .ok ()) {d : RelationDef} (hd : d ∈ r.relations) :
    ∃ target, defs.find? d.resource = some target := by
  obtain ⟨_, target, htarget, _⟩ := ((checkRelations_eq_ok defs r [] _).mp h).2 d hd
  exact ⟨target, htarget⟩

/-- The four checks of a definition: primary key, slug column, relations and searchable paths. -/
theorem checkResource_eq_ok {defs : Definitions} {r : ResourceDef} :
    checkResource defs r = .ok () ↔
      r.primaryKey ∈ r.columnNames ∧ (∀ column ∈ r.slugColumn, column ∈ r.columnNames) ∧
        checkRelations defs r [] r.relations = .ok () ∧
        ∀ field ∈ r.searchable, checkSearchable defs r field = .ok () := by
  rw [checkResource]
  simp only [Outcome.check_bind_eq_ok, Outcome.forM_eq_ok, requireColumn_eq_ok,
    Option.mem_toList, Option.mem_def]

/-- Definitions pass exactly when no two share a name and each passes its own checks. -/
theorem check_eq_ok {defs : Definitions} :
    check defs = .ok () ↔ (defs.resources.map ResourceDef.name).Nodup ∧
      ∀ r ∈ defs.resources, checkResource defs r = .ok () := by
  have hnames := repeated?_eq_none_iff [] (defs.resources.map ResourceDef.name)
  rw [check]
  cases hrepeated : repeated? [] (defs.resources.map ResourceDef.name) with
  | some name =>
    simp only [hrepeated, List.not_mem_nil, not_false_eq_true, implies_true, and_true] at hnames
    simp [← hnames]
  | none =>
    rw [hrepeated] at hnames
    have hnodup := (hnames.mp rfl).1
    simp only [Outcome.forM_eq_ok, hnodup, true_and]

/-- Definitions resolve exactly when they pass the checks, to the model of their resolved resources.
-/
theorem resolve_eq_ok {defs : Definitions} {model : Model} :
    resolve defs = .ok model ↔
      check defs = .ok () ∧ model = ⟨defs.resources.map resolveResource⟩ := by
  rw [resolve, Outcome.check_bind_eq_ok]
  refine and_congr_right fun _ => ?_
  exact ⟨fun h => (Except.ok.inj h).symm, fun h => congrArg Except.ok h.symm⟩

/-- A resource that is defined is resolved under its name. -/
theorem resource?_of_find? {defs : Definitions} {name : String} {target : ResourceDef}
    (h : defs.find? name = some target) :
    Model.resource? ⟨defs.resources.map resolveResource⟩ name = some (resolveResource target) := by
  show (defs.resources.map resolveResource).find? _ = _
  rw [List.find?_map]
  exact congrArg (Option.map resolveResource) h

/-- Definitions that resolve have passed every check. -/
theorem checked_of_resolve {defs : Definitions} {model : Model} (h : resolve defs = .ok model) :
    model = ⟨defs.resources.map resolveResource⟩ ∧
      (defs.resources.map ResourceDef.name).Nodup ∧
      ∀ rdef ∈ defs.resources,
        rdef.primaryKey ∈ rdef.columnNames ∧
        checkRelations defs rdef [] rdef.relations = .ok () ∧
        ∀ field ∈ rdef.searchable, checkSearchable defs rdef field = .ok () := by
  obtain ⟨hcheck, hmodel⟩ := resolve_eq_ok.mp h
  obtain ⟨hnames, hresources⟩ := check_eq_ok.mp hcheck
  refine ⟨hmodel, hnames, fun rdef hrdef => ?_⟩
  obtain ⟨hkey, _, hrelations, hsearchable⟩ := checkResource_eq_ok.mp (hresources rdef hrdef)
  exact ⟨hkey, hrelations, hsearchable⟩

/-- A model that definitions resolve to is sound. -/
theorem sound_of_resolve {defs : Definitions} {model : Model} (h : resolve defs = .ok model) :
    model.Sound := by
  obtain ⟨rfl, hnames, hchecked⟩ := checked_of_resolve h
  constructor
  · rw [List.map_map]
    exact hnames
  · intro r hr relation hrelation
    obtain ⟨rdef, hdef, rfl⟩ := List.mem_map.mp hr
    obtain ⟨reldef, hreldef, rfl⟩ := List.mem_map.mp hrelation
    obtain ⟨_, hrelations, _⟩ := hchecked rdef hdef
    obtain ⟨target, htarget⟩ := target_of_checkRelations hrelations hreldef
    exact ⟨resolveResource target, resource?_of_find? htarget⟩

/-- The relations of a resolved resource have names of their own. -/
theorem nodup_relations_of_resolve {defs : Definitions} {model : Model}
    (h : resolve defs = .ok model) {r : Resource} (hr : r ∈ model.resources) :
    (r.relations.map Relation.name).Nodup := by
  obtain ⟨rfl, _, hchecked⟩ := checked_of_resolve h
  obtain ⟨rdef, hdef, rfl⟩ := List.mem_map.mp hr
  obtain ⟨_, hrelations, _⟩ := hchecked rdef hdef
  have hnames := ((checkRelations_eq_ok defs rdef [] _).mp hrelations).1
  show ((rdef.relations.map _).map Relation.name).Nodup
  rw [List.map_map]
  exact hnames

/-- In a resolved model the relation of a name is the one that is declared under it, and it leads
to the resource that it names. -/
theorem related_iff_of_resolve {defs : Definitions} {model : Model}
    (h : resolve defs = .ok model) {r : Resource} (hr : r ∈ model.resources) {name : String}
    {relation : Relation} {target : Resource} :
    model.related r name = .ok (relation, target) ↔
      (relation ∈ r.relations ∧ relation.name = name) ∧
        target ∈ model.resources ∧ target.name = relation.related := by
  rw [Model.related_eq_ok]
  exact and_congr (find?_name_eq_some_iff (nodup_relations_of_resolve h hr))
    (find?_name_eq_some_iff (sound_of_resolve h).distinct)

end Config

namespace Model.Sound

variable {model : Model} (sound : model.Sound)

include sound

/-- A resource of a sound model is the one of its name. -/
theorem requireResource_name {r : Resource} (hr : r ∈ model.resources) :
    model.requireResource r.name = .ok r :=
  requireResource_eq_ok.mpr ((find?_name_eq_some_iff sound.distinct).mpr ⟨hr, rfl⟩)

/-- A relation of a resource of a sound model resolves. -/
theorem related_of_requireRelation {r : Resource} (hr : r ∈ model.resources) {name : String}
    {relation : Relation} (h : r.requireRelation name = .ok relation) :
    ∃ target, model.related r name = .ok (relation, target) := by
  have hfound := Resource.requireRelation_eq_ok.mp h
  obtain ⟨target, htarget⟩ := sound.targets r hr relation (List.mem_of_find?_eq_some hfound)
  exact ⟨target, related_eq_ok.mpr ⟨hfound, htarget⟩⟩

/-- In a sound model every relation that a resource declares leads to one of the resources. -/
theorem exists_related {r : Resource} (hr : r ∈ model.resources) {name : String}
    (h : ∃ relation, r.requireRelation name = .ok relation) :
    ∃ found, model.related r name = .ok found := by
  obtain ⟨relation, hrelation⟩ := h
  obtain ⟨target, htarget⟩ := sound.related_of_requireRelation hr hrelation
  exact ⟨(relation, target), htarget⟩

end Model.Sound

namespace Config

/-- Posts, which keep their trash, have a slug and are searched together with their comments. -/
def postsDef : ResourceDef where
  name := "posts"
  table := "posts"
  slugColumn := some "slug"
  softDeleteColumn := some "deleted_at"
  columns := [.typed "id" (some "bigint"), .plain "slug", .plain "title"]
  searchable := ["title", "comments.body"]
  relations := [⟨"comments", "comments", .hasMany, "id", "post_id"⟩]

/-- Comments, which keep their trash too. -/
def commentsDef : ResourceDef where
  name := "comments"
  table := "comments"
  softDeleteColumn := some "deleted_at"
  columns := [.typed "id" (some "bigint"), .typed "post_id" (some "bigint"), .plain "body"]
  relations := [⟨"post", "posts", .belongsTo, "post_id", "id"⟩]

/-- A small model on which statements about all models are tried. -/
def journal : Model := ⟨[resolveResource postsDef, resolveResource commentsDef]⟩

/-- The definitions of posts and comments resolve to the journal. -/
theorem resolve_journal : resolve ⟨[postsDef, commentsDef]⟩ = .ok journal := rfl

end Config

end Records
