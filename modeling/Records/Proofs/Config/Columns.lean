import Records.Proofs.Config.Sound

/-!
# Columns of resolved models

A resolved resource has the columns that its definition names, no others
(`hasColumn_resolveResource`), so whatever the check of definitions asked for is there: the key, the
time stamp, the trash mark and every field that a search looks into (`columned_of_resolve`).
-/

set_option autoImplicit false

namespace Records

/-- A resource has the columns that its list names. -/
theorem Resource.hasColumn_iff (r : Resource) (name : String) :
    r.hasColumn name = true ↔ name ∈ r.columns.map Column.name := by
  rw [hasColumn, column?, List.find?_isSome, List.mem_map]
  simp only [beq_iff_eq]

/-- A required column is found exactly when the list names it. -/
theorem Resource.exists_requireColumn_iff {r : Resource} {name : String} :
    (∃ column, r.requireColumn name = .ok column) ↔ name ∈ r.columns.map Column.name := by
  simp only [requireColumn_eq_ok, ← hasColumn_iff, hasColumn, Option.isSome_iff_exists]

/-- A resource has every column that is found in it. -/
theorem Resource.hasColumn_of_requireColumn {r : Resource} {name : String}
    (h : ∃ column, r.requireColumn name = .ok column) : r.hasColumn name = true := by
  obtain ⟨column, h⟩ := h
  rw [hasColumn, requireColumn_eq_ok.mp h]
  rfl

/-- Where a search looks is a column of a resource, or a column of the target of a relation. -/
def Resource.Searches (model : Model) (r : Resource) (field : String) : Prop :=
  match Text.cutFirst '.' field.toList with
  | some (name, column) =>
    ∃ relation target, model.related r (String.ofList name) = .ok (relation, target) ∧
      target.hasColumn (String.ofList column) = true
  | none => r.hasColumn field = true

/-- The columns that have a role in a resource of a model exist. -/
structure Resource.Columned (model : Model) (r : Resource) : Prop where
  key : r.hasColumn r.primaryKey = true
  timestamp : r.hasColumn r.timestampColumn = true
  mark : ∀ column ∈ r.softDeleteColumn, r.hasColumn column = true
  searched : ∀ field ∈ r.searchable, r.Searches model field

namespace Config

/-- Adding a timestamp column adds its name and no other. -/
theorem mem_names_addTimestamp (columns : List Column) (added name : String) :
    name ∈ (addTimestamp columns added).map Column.name ↔
      name ∈ columns.map Column.name ∨ name = added := by
  rw [addTimestamp]
  split
  · rename_i hdeclared
    have hadded : added ∈ columns.map Column.name := by simpa using hdeclared
    constructor
    · exact .inl
    · rintro (hname | rfl)
      · exact hname
      · exact hadded
  · rw [List.map_append, List.mem_append, List.map_singleton, List.mem_singleton]

/-- Adding timestamp columns one after another adds their names and no others. -/
theorem mem_names_foldl_addTimestamp (columns : List Column) (added : List String)
    (name : String) :
    name ∈ (added.foldl addTimestamp columns).map Column.name ↔
      name ∈ columns.map Column.name ∨ name ∈ added := by
  induction added generalizing columns with
  | nil => simp
  | cons first rest ih =>
    rw [List.foldl_cons, ih, mem_names_addTimestamp, List.mem_cons, or_assoc]

/-- A resolved resource has the columns that are declared, the time stamp and the trash mark. -/
theorem hasColumn_resolveResource (rdef : ResourceDef) (name : String) :
    (resolveResource rdef).hasColumn name = true ↔ name ∈ rdef.columnNames := by
  have hdeclared : (rdef.columns.map fun c => (⟨c.name, c.type.bind databaseType?⟩ : Column)).map
      Column.name = rdef.columns.map ColumnDef.name := by
    rw [List.map_map]
    rfl
  rw [Resource.hasColumn_iff]
  show name ∈ (columnsOf rdef).map Column.name ↔ _
  rw [columnsOf, mem_names_foldl_addTimestamp, hdeclared, ResourceDef.columnNames, List.mem_append]

/-- A relation that is defined and leads to a resource that is defined resolves. -/
theorem related_resolveResource {defs : Definitions} {rdef target : ResourceDef} {name : String}
    {d : RelationDef} (hrelation : (rdef.relations.find? fun d => d.name == name) = some d)
    (htarget : defs.find? d.resource = some target) :
    Model.related ⟨defs.resources.map resolveResource⟩ (resolveResource rdef) name =
      .ok (⟨d.name, d.kind, d.resource, d.localKey, d.foreignKey⟩, resolveResource target) := by
  have hfound : (resolveResource rdef).relation? name =
      some ⟨d.name, d.kind, d.resource, d.localKey, d.foreignKey⟩ := by
    show (rdef.relations.map _).find? _ = _
    rw [List.find?_map]
    exact congrArg (Option.map _) hrelation
  exact Model.related_eq_ok.mpr ⟨hfound, resource?_of_find? htarget⟩

/-- A field that passes the check is where a search can look. -/
theorem searches_of_checkSearchable {defs : Definitions} {rdef : ResourceDef} {field : String}
    (hrelations : checkRelations defs rdef [] rdef.relations = .ok ())
    (h : checkSearchable defs rdef field = .ok ()) :
    (resolveResource rdef).Searches ⟨defs.resources.map resolveResource⟩ field := by
  rw [checkSearchable] at h
  rw [Resource.Searches]
  cases hcut : Text.cutFirst '.' field.toList with
  | none =>
    rw [hcut] at h
    exact (hasColumn_resolveResource rdef field).mpr (requireColumn_eq_ok.mp h)
  | some parts =>
    obtain ⟨name, column⟩ := parts
    simp only [hcut] at h
    cases hrelation : rdef.relations.find? fun d => d.name == String.ofList name with
    | none => simp [hrelation] at h
    | some d =>
      obtain ⟨target, htarget⟩ :=
        target_of_checkRelations hrelations (List.mem_of_find?_eq_some hrelation)
      simp only [hrelation, htarget] at h
      split at h
      · cases h
      · exact ⟨_, resolveResource target, related_resolveResource hrelation htarget,
          (hasColumn_resolveResource target _).mpr (requireColumn_eq_ok.mp h)⟩

/-- The resources of a model that definitions resolve to have all the columns that they name. -/
theorem columned_of_resolve {defs : Definitions} {model : Model} (h : resolve defs = .ok model)
    {r : Resource} (hr : r ∈ model.resources) : r.Columned model := by
  obtain ⟨rfl, _, hchecked⟩ := checked_of_resolve h
  obtain ⟨rdef, hdef, rfl⟩ := List.mem_map.mp hr
  obtain ⟨hkey, hrelations, hsearchable⟩ := hchecked rdef hdef
  constructor
  · exact (hasColumn_resolveResource rdef _).mpr hkey
  · apply (hasColumn_resolveResource rdef _).mpr
    exact List.mem_append_right _ List.mem_cons_self
  · intro column hcolumn
    apply (hasColumn_resolveResource rdef _).mpr
    exact List.mem_append_right _ (List.mem_cons_of_mem _ (Option.mem_toList.mpr hcolumn))
  · exact fun field hfield => searches_of_checkSearchable hrelations (hsearchable field hfield)

end Config

end Records
