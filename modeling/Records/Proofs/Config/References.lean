import Records.Proofs.Config.Columns
import Records.Proofs.Text.Split

/-!
# Sound references

Definitions resolve exactly when every name in them refers to something: key columns and join
columns to columns, relations to resources, and the fields that a search looks into to a column, or
to a relation and a column of its target.  The model that they resolve to has the same resources,
relations and columns, and its relations lead where they say (`resolves_iff_sound`).
-/

set_option autoImplicit false

namespace Records

/-- A column of a resource is one that is declared, the time stamp or the trash mark. -/
def ResourceDef.Provides (r : ResourceDef) (name : String) : Prop :=
  (∃ column ∈ r.columns, column.name = name) ∨ name = r.timestampColumn ∨
    r.softDeleteColumn = some name

/-- A relation leads from a column of its resource to a column of another one. -/
def RelationDef.Joins (defs : Definitions) (r : ResourceDef) (d : RelationDef) : Prop :=
  ∃ target ∈ defs.resources, target.name = d.resource ∧ r.Provides d.localKey ∧
    target.Provides d.foreignKey

/-- What a search can look into: a column without a dot in its name, or a relation and such a column
of its target, parted by the first dot. -/
inductive ResourceDef.CanSearch (defs : Definitions) (r : ResourceDef) : String → Prop
  | column {name : String} (dotless : '.' ∉ name.toList) (provided : r.Provides name) :
      CanSearch defs r name
  | related {d : RelationDef} {target : ResourceDef} {name : String} (declared : d ∈ r.relations)
      (defined : target ∈ defs.resources) (led : target.name = d.resource)
      (first : '.' ∉ d.name.toList) (dotless : '.' ∉ name.toList)
      (provided : target.Provides name) :
      CanSearch defs r (d.name ++ "." ++ name)

/-- Every name in the definition of a resource refers to something. -/
structure ResourceDef.Sound (defs : Definitions) (r : ResourceDef) : Prop where
  key : r.Provides r.primaryKey
  slug : ∀ column ∈ r.slugColumn, r.Provides column
  distinct : (r.relations.map RelationDef.name).Nodup
  joined : ∀ d ∈ r.relations, d.Joins defs r
  searched : ∀ field ∈ r.searchable, r.CanSearch defs field

/-- Resources have names of their own, and every name in them refers to something. -/
structure Definitions.Sound (defs : Definitions) : Prop where
  distinct : (defs.resources.map ResourceDef.name).Nodup
  resources : ∀ r ∈ defs.resources, r.Sound defs

/-- A resource has the name, the relations and the columns of its definition. -/
structure Resource.Follows (rdef : ResourceDef) (r : Resource) : Prop where
  name : r.name = rdef.name
  relations : r.relations =
    rdef.relations.map fun d => ⟨d.name, d.kind, d.resource, d.localKey, d.foreignKey⟩
  columns : ∀ name, r.hasColumn name = true ↔ rdef.Provides name

/-- A model has the resources of its definitions, in order, each found by its name, and their
relations lead from columns to columns. -/
structure Model.Follows (defs : Definitions) (model : Model) : Prop where
  listed : List.Forall₂ Resource.Follows defs.resources model.resources
  found : ∀ name r, model.resource? name = some r ↔ r ∈ model.resources ∧ r.name = name
  related : ∀ r ∈ model.resources, ∀ relation ∈ r.relations, ∃ target,
    model.related r relation.name = .ok (relation, target) ∧
      r.hasColumn relation.localKey = true ∧ target.hasColumn relation.foreignKey = true

/-- The known columns of a definition are those that it provides, declared or added by its features.
-/
theorem ResourceDef.mem_columnNames {r : ResourceDef} {name : String} :
    name ∈ r.columnNames ↔ r.Provides name := by
  simp only [columnNames, Provides, List.mem_append, List.mem_map, List.mem_cons,
    Option.mem_toList]

namespace Config

variable {defs : Definitions} {r : ResourceDef}

section

variable (distinct : (defs.resources.map ResourceDef.name).Nodup)

include distinct

/-- In definitions without repeated names, the definition found is the one with that name. -/
theorem find?_eq_some_iff {name : String} {target : ResourceDef} :
    defs.find? name = some target ↔ target ∈ defs.resources ∧ target.name = name :=
  find?_name_eq_some_iff distinct

/-- The relations of a definition pass exactly when their names differ and each joins columns that
exist. -/
theorem checkRelations_iff_joins :
    checkRelations defs r [] r.relations = .ok () ↔
      (r.relations.map RelationDef.name).Nodup ∧ ∀ d ∈ r.relations, d.Joins defs r := by
  rw [checkRelations_eq_ok]
  refine and_congr_right fun _ => forall₂_congr fun d _ => ?_
  simp only [List.not_mem_nil, not_false_eq_true, true_and, find?_eq_some_iff distinct,
    ResourceDef.mem_columnNames, RelationDef.Joins, and_assoc]

/-- A field passes the check where it can be searched, if the relations have passed theirs. -/
theorem checkSearchable_iff_canSearch (names : (r.relations.map RelationDef.name).Nodup)
    (joined : ∀ d ∈ r.relations, d.Joins defs r) {field : String} :
    checkSearchable defs r field = .ok () ↔ r.CanSearch defs field := by
  constructor
  · intro h
    rw [checkSearchable] at h
    cases hcut : Text.cutFirst '.' field.toList with
    | none =>
      rw [hcut] at h
      apply ResourceDef.CanSearch.column (Text.cutFirst_eq_none_iff.mp hcut)
      exact ResourceDef.mem_columnNames.mp (requireColumn_eq_ok.mp h)
    | some parts =>
      obtain ⟨before, after⟩ := parts
      obtain ⟨hfield, hbefore⟩ := Text.eq_append_of_cutFirst hcut
      simp only [hcut] at h
      -- a path has a relation in front of its first dot, and the target has to exist
      cases hrelation : r.relations.find? fun d => d.name == String.ofList before with
      | none => simp [hrelation] at h
      | some d =>
        obtain ⟨hd, hname⟩ := (find?_name_eq_some_iff names).mp hrelation
        obtain ⟨target, hmem, htarget, _⟩ := joined d hd
        have hfound := (find?_eq_some_iff distinct).mpr ⟨hmem, htarget⟩
        simp only [hrelation, hfound] at h
        split at h
        · cases h
        · rename_i hafter
          have hjoined : field = d.name ++ "." ++ String.ofList after := by
            apply String.toList_injective
            simp [hname, hfield]
          rw [hjoined]
          refine .related hd hmem htarget ?_ ?_ ?_
          · simpa [hname] using hbefore
          · simpa using hafter
          · exact ResourceDef.mem_columnNames.mp (requireColumn_eq_ok.mp h)
  · intro h
    rw [checkSearchable]
    cases h with
    | column dotless provided =>
      rw [Text.cutFirst_eq_none_iff.mpr dotless]
      exact requireColumn_eq_ok.mpr (ResourceDef.mem_columnNames.mpr provided)
    | @related d target name declared defined led first dotless provided =>
      -- names are distinct, so looking them up gives back what was declared
      have hrelation : (r.relations.find? fun other => other.name == d.name) = some d :=
        (find?_name_eq_some_iff names).mpr ⟨declared, rfl⟩
      have hfound := (find?_eq_some_iff distinct).mpr ⟨defined, led⟩
      have hfield : (d.name ++ "." ++ name).toList = d.name.toList ++ '.' :: name.toList := by simp
      rw [hfield, Text.cutFirst_append first]
      simp only [String.ofList_toList, hrelation, hfound]
      rw [if_neg (by simpa using dotless)]
      exact requireColumn_eq_ok.mpr (ResourceDef.mem_columnNames.mpr provided)

/-- A definition passes its checks exactly when all its references are sound. -/
theorem checkResource_iff_sound : checkResource defs r = .ok () ↔ r.Sound defs := by
  rw [checkResource_eq_ok, checkRelations_iff_joins distinct]
  simp only [ResourceDef.mem_columnNames]
  constructor
  · rintro ⟨hkey, hslug, ⟨hnames, hjoined⟩, hsearchable⟩
    refine ⟨hkey, hslug, hnames, hjoined, fun field hfield => ?_⟩
    exact (checkSearchable_iff_canSearch distinct hnames hjoined).mp (hsearchable field hfield)
  · rintro ⟨hkey, hslug, hnames, hjoined, hsearched⟩
    refine ⟨hkey, hslug, ⟨hnames, hjoined⟩, fun field hfield => ?_⟩
    exact (checkSearchable_iff_canSearch distinct hnames hjoined).mpr (hsearched field hfield)

end

/-- Definitions pass exactly when they are sound, references and distinct names alike. -/
theorem check_iff_sound : check defs = .ok () ↔ defs.Sound := by
  rw [check_eq_ok]
  constructor
  · rintro ⟨distinct, hresources⟩
    exact ⟨distinct, fun r hr => (checkResource_iff_sound distinct).mp (hresources r hr)⟩
  · rintro ⟨distinct, hresources⟩
    exact ⟨distinct, fun r hr => (checkResource_iff_sound distinct).mpr (hresources r hr)⟩

/-- A resolved resource has exactly the columns that its definition provides. -/
theorem hasColumn_iff_provides (rdef : ResourceDef) (name : String) :
    (resolveResource rdef).hasColumn name = true ↔ rdef.Provides name :=
  (hasColumn_resolveResource rdef name).trans ResourceDef.mem_columnNames

/-- A resolved resource follows its definition. -/
theorem follows_resolveResource (rdef : ResourceDef) : (resolveResource rdef).Follows rdef :=
  ⟨rfl, rfl, hasColumn_iff_provides rdef⟩

/-- The relations of a sound definition lead from columns to columns in the model. -/
theorem related_of_sound (sound : defs.Sound) (hr : r ∈ defs.resources) {d : RelationDef}
    (hd : d ∈ r.relations) : ∃ target,
      Model.related ⟨defs.resources.map resolveResource⟩ (resolveResource r) d.name =
          .ok (⟨d.name, d.kind, d.resource, d.localKey, d.foreignKey⟩, target) ∧
        (resolveResource r).hasColumn d.localKey = true ∧
        target.hasColumn d.foreignKey = true := by
  obtain ⟨target, hmem, htarget, hlocal, hforeign⟩ := (sound.resources r hr).joined d hd
  have hrelation : (r.relations.find? fun other => other.name == d.name) = some d :=
    (find?_name_eq_some_iff (sound.resources r hr).distinct).mpr ⟨hd, rfl⟩
  have hfound := (find?_eq_some_iff sound.distinct).mpr ⟨hmem, htarget⟩
  exact ⟨resolveResource target, related_resolveResource hrelation hfound,
    (hasColumn_iff_provides r _).mpr hlocal, (hasColumn_iff_provides target _).mpr hforeign⟩

/-- Definitions resolve exactly when they are sound, and the model follows them. -/
theorem resolves_iff_sound (defs : Definitions) :
    ((∃ model, resolve defs = .ok model) ↔ defs.Sound) ∧
      ∀ model, resolve defs = .ok model → model.Follows defs := by
  constructor
  · rw [← check_iff_sound]
    constructor
    · rintro ⟨model, h⟩
      exact (resolve_eq_ok.mp h).1
    · intro h
      exact ⟨_, resolve_eq_ok.mpr ⟨h, rfl⟩⟩
  · intro model h
    obtain ⟨hcheck, rfl⟩ := resolve_eq_ok.mp h
    have sound := check_iff_sound.mp hcheck
    refine ⟨?_, fun name r => ?_, fun r hr relation hrelation => ?_⟩
    · rw [List.forall₂_map_right_iff]
      exact List.forall₂_same.mpr fun rdef _ => follows_resolveResource rdef
    · exact find?_name_eq_some_iff (sound_of_resolve h).distinct
    · obtain ⟨rdef, hdef, rfl⟩ := List.mem_map.mp hr
      obtain ⟨d, hd, rfl⟩ := List.mem_map.mp hrelation
      exact related_of_sound sound hdef hd

/-- Posts and comments refer to each other, and posts are searched through a relation. -/
theorem resolves_iff_sound_journal :
    resolve ⟨[postsDef, commentsDef]⟩ = .ok journal ∧ Definitions.Sound ⟨[postsDef, commentsDef]⟩ ∧
      journal.Follows ⟨[postsDef, commentsDef]⟩ := by
  obtain ⟨hsound, hfollows⟩ := resolves_iff_sound ⟨[postsDef, commentsDef]⟩
  exact ⟨resolve_journal, hsound.mp ⟨journal, resolve_journal⟩, hfollows journal resolve_journal⟩

end Config

end Records
