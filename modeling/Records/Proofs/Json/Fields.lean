import Records.Json.Value

/-!
# Reading fields back

What a field holds after a field has been put, when a value is there at all, and that the names of
fields stay distinct.
-/

set_option autoImplicit false

/-- A value is present when it is given and not null. -/
theorem Records.Json.present?_eq_some_iff {a : Option Json} {value : Json} :
    present? a = some value ↔ a = some value ∧ value.isNull = false := by
  cases a with
  | none => simp [present?]
  | some found =>
    cases found with
    | null =>
      simp only [present?, Option.some.injEq]
      constructor
      · intro h
        cases h
      · rintro ⟨rfl, h⟩
        cases h
    | _ =>
      simp only [present?, Option.some.injEq]
      constructor
      · rintro rfl
        exact ⟨rfl, rfl⟩
      · exact And.left

namespace Records.Fields

/-- Looking up a name asks the first field and then the rest. -/
theorem get?_cons (name : String) (field : String × Json) (rest : Fields) :
    get? (field :: rest) name = if field.1 = name then some field.2 else get? rest name := by
  by_cases h : field.1 = name
  · simp [get?, h]
  · simp [get?, h]

/-- A value that is found stands in the fields under its name. -/
theorem mem_of_get? {fields : Fields} {name : String} {value : Json}
    (h : get? fields name = some value) : (name, value) ∈ fields := by
  obtain ⟨field, hfield, rfl⟩ := Option.map_eq_some_iff.mp h
  have hname : field.1 = name := by simpa using List.find?_some hfield
  rw [← hname]
  exact List.mem_of_find?_eq_some hfield

/-- Among fields with distinct names each is found under its own. -/
theorem get?_of_mem {fields : Fields} (distinct : (fields.map Prod.fst).Nodup)
    {field : String × Json} (h : field ∈ fields) : get? fields field.1 = some field.2 := by
  induction fields with
  | nil => cases h
  | cons first rest ih =>
    obtain ⟨hfirst, hrest⟩ := List.nodup_cons.mp distinct
    rw [get?_cons]
    rcases List.mem_cons.mp h with rfl | h
    · rw [if_pos rfl]
    · have hne : first.1 ≠ field.1 := fun heq => hfirst (heq ▸ List.mem_map_of_mem h)
      rw [if_neg hne]
      exact ih hrest h

/-- A field that was put is found under its name, and the others are found as before. -/
theorem get?_put (fields : Fields) (name : String) (value : Json) (other : String) :
    get? (put fields name value) other =
      if name = other then some value else get? fields other := by
  induction fields with
  | nil => simp [put, get?_cons]
  | cons field rest ih =>
    obtain ⟨n, v⟩ := field
    by_cases hn : n = name
    · subst hn
      by_cases hother : n = other <;> simp [put, get?_cons, hother]
    · have hput : put ((n, v) :: rest) name value = (n, v) :: put rest name value := by
        simp [put, hn]
      rw [hput, get?_cons, get?_cons, ih]
      by_cases hother : n = other
      · have hname : name ≠ other := fun h => hn (hother.trans h.symm)
        simp [hother, hname]
      · simp [hother]

/-- A name is not found exactly when no field has it. -/
theorem get?_eq_none_iff {fields : Fields} {name : String} :
    get? fields name = none ↔ name ∉ fields.map Prod.fst := by
  induction fields with
  | nil => simp [get?]
  | cons field rest ih =>
    rw [get?_cons, List.map_cons, List.mem_cons, not_or, ← ih]
    by_cases h : field.1 = name
    · simp [h]
    · simp [h, Ne.symm h]

/-- A field that is not there is put at the end. -/
theorem put_of_get?_eq_none {fields : Fields} {name : String} (h : get? fields name = none)
    (value : Json) : put fields name value = fields ++ [(name, value)] := by
  induction fields with
  | nil => rfl
  | cons field rest ih =>
    rw [get?_cons] at h
    split at h
    · cases h
    · rename_i hname
      simp [put, hname, ih h]

/-- Of two values put under one name the second stays. -/
theorem put_put (fields : Fields) (name : String) (first second : Json) :
    put (put fields name first) name second = put fields name second := by
  induction fields with
  | nil => simp [put]
  | cons field rest ih =>
    obtain ⟨n, v⟩ := field
    by_cases hn : n = name
    · simp [put, hn]
    · simp [put, hn, ih]

/-- Putting a field leaves the fields of other names. -/
theorem filter_put (fields : Fields) (name : String) (value : Json) :
    ((put fields name value).filter fun field => field.1 ≠ name) =
      fields.filter fun field => field.1 ≠ name := by
  induction fields with
  | nil => simp [put]
  | cons field rest ih =>
    obtain ⟨n, v⟩ := field
    by_cases hn : n = name
    · simp [put, hn]
    · simpa [put, hn] using ih

/-- Keeping fields by their names keeps what is found under a kept name and nothing under another.
-/
theorem get?_filter (keeps : String → Bool) (fields : Fields) (name : String) :
    get? (fields.filter fun field => keeps field.1) name =
      if keeps name then get? fields name else none := by
  induction fields with
  | nil => simp [get?]
  | cons field rest ih =>
    rw [List.filter_cons]
    by_cases hname : field.1 = name
    · subst hname
      by_cases hkeeps : keeps field.1 = true
      · simp [hkeeps, get?_cons]
      · simp [hkeeps, ih]
    · by_cases hkeeps : keeps field.1 = true <;> simp [hkeeps, hname, get?_cons, ih]

/-- A field that is there is put in its place. -/
theorem map_fst_put_of_mem {fields : Fields} {name : String} (h : name ∈ fields.map Prod.fst)
    (value : Json) : (put fields name value).map Prod.fst = fields.map Prod.fst := by
  induction fields with
  | nil => cases h
  | cons field rest ih =>
    obtain ⟨n, v⟩ := field
    by_cases hn : n = name
    · simp [put, hn]
    · have hrest : name ∈ rest.map Prod.fst := by simpa [Ne.symm hn] using h
      simp [put, hn, ih hrest]

/-- Putting fields that are there leaves the names as they are. -/
theorem map_fst_foldl_put_of_mem {changes fields : Fields}
    (h : ∀ field ∈ changes, field.1 ∈ fields.map Prod.fst) :
    (changes.foldl (fun fields field => put fields field.1 field.2) fields).map Prod.fst =
      fields.map Prod.fst := by
  induction changes generalizing fields with
  | nil => rfl
  | cons field rest ih =>
    obtain ⟨hfield, hrest⟩ := List.forall_mem_cons.mp h
    have hput := map_fst_put_of_mem hfield field.2
    rw [List.foldl_cons, ih (by rwa [hput]), hput]

/-- Putting a new field adds its name and no other. -/
theorem mem_names_putNew (fields : Fields) (name : String) (value : Json) (other : String) :
    other ∈ (putNew fields name value).map Prod.fst ↔
      other ∈ fields.map Prod.fst ∨ other = name := by
  rw [putNew]
  split
  · rename_i hname
    have hthere : name ∈ fields.map Prod.fst := by simpa [has] using hname
    constructor
    · exact .inl
    · rintro (hother | rfl)
      · exact hother
      · exact hthere
  · rw [List.map_append, List.mem_append, List.map_singleton, List.mem_singleton]

/-- Names that are distinct stay so. -/
theorem nodup_put {fields : Fields} (distinct : (fields.map Prod.fst).Nodup) (name : String)
    (value : Json) : ((put fields name value).map Prod.fst).Nodup := by
  by_cases hname : name ∈ fields.map Prod.fst
  · rw [map_fst_put_of_mem hname]
    exact distinct
  · rw [put_of_get?_eq_none (get?_eq_none_iff.mpr hname), List.map_append]
    refine List.nodup_append.mpr ⟨distinct, by simp, ?_⟩
    intro other hother last hlast heq
    rw [List.map_singleton, List.mem_singleton] at hlast
    rw [heq, hlast] at hother
    exact hname hother

/-- The fields of a written object have distinct names. -/
theorem nodup_ofWritten (written : List (String × Json)) :
    ((ofWritten written).map Prod.fst).Nodup := by
  have hfold : ∀ (written : List (String × Json)) (fields : Fields),
      (fields.map Prod.fst).Nodup →
        ((written.foldl (fun fields field => put fields field.1 field.2) fields).map
          Prod.fst).Nodup := by
    intro written
    induction written with
    | nil => exact fun _ distinct => distinct
    | cons field rest ih => exact fun _ distinct => ih _ (nodup_put distinct _ _)
  exact hfold written [] List.nodup_nil

/-- Putting fields of distinct names gives each its value and leaves the others as they are. -/
theorem get?_foldl_put {changes : Fields} (distinct : (changes.map Prod.fst).Nodup)
    (fields : Fields) (name : String) :
    get? (changes.foldl (fun fields field => put fields field.1 field.2) fields) name =
      (get? changes name).or (get? fields name) := by
  induction changes generalizing fields with
  | nil => rfl
  | cons field rest ih =>
    obtain ⟨hfield, hrest⟩ := List.nodup_cons.mp distinct
    rw [List.foldl_cons, ih hrest, get?_put, get?_cons]
    by_cases hname : field.1 = name
    · rw [if_pos hname, if_pos hname, get?_eq_none_iff.mpr (hname ▸ hfield)]
      rfl
    · rw [if_neg hname, if_neg hname]

/-- Putting a value for each of some names, however often they are named, gives each its value. -/
theorem get?_foldl_put_map (value : String → Json) (names : List String) (fields : Fields)
    (name : String) :
    get? ((names.map fun n => (n, value n)).foldl
        (fun fields field => put fields field.1 field.2) fields) name =
      if name ∈ names then some (value name) else get? fields name := by
  induction names generalizing fields with
  | nil => simp
  | cons first rest ih =>
    rw [List.map_cons, List.foldl_cons, ih, get?_put]
    by_cases hfirst : first = name
    · subst hfirst
      simp
    · simp [hfirst, Ne.symm hfirst]

/-- In an object written from names and a value for each, a name is found exactly when it was
written. -/
theorem get?_ofWritten_map (value : String → Json) (names : List String) (name : String) :
    get? (ofWritten (names.map fun n => (n, value n))) name =
      if name ∈ names then some (value name) else none :=
  get?_foldl_put_map value names [] name

/-- Putting other fields leaves a field as it is. -/
theorem get?_foldl_put_of_ne {name : String} (changes fields : Fields)
    (h : ∀ field ∈ changes, field.1 ≠ name) :
    get? (changes.foldl (fun fields field => put fields field.1 field.2) fields) name =
      get? fields name := by
  induction changes generalizing fields with
  | nil => rfl
  | cons field rest ih =>
    have hfield : field.1 ≠ name := h field (by simp)
    rw [List.foldl_cons, ih _ fun other hother => h other (List.mem_cons_of_mem _ hother), get?_put,
      if_neg hfield]

end Records.Fields
