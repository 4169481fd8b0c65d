import Records.Sql.Print

/-!
# The placeholders of write statements

Each column that a write statement names takes the next placeholder, with the cast of the column,
and its value is bound in the same order (`placeholders_eq`).  The placeholders are a function of
the names alone (`placeholders_fst`).
-/

set_option autoImplicit false

namespace Records.Sql

/-- The placeholders of columns in turn, after a number of bound values. -/
def columnPlaceholders (r : Resource) (bound : Nat) : List String → List (String × Placeholder)
  | [] => []
  | column :: rest =>
    (column, ⟨bound + 1, r.columnType? column⟩) :: columnPlaceholders r (bound + 1) rest

/-- The value that is bound for a field: as it is where the type of its column is known, and as text
otherwise. -/
def boundValue (r : Resource) (field : String × Json) : BindValue :=
  match r.columnType? field.1 with
  | some _ => .typed field.2
  | none => .untyped field.2

/-- The placeholder of a value has the next number and its column's type. -/
theorem placeholder_fst (r : Resource) (values : List BindValue) (column : String) (value : Json) :
    (placeholder r values column value).1 = ⟨values.length + 1, r.columnType? column⟩ := by
  rw [placeholder]
  cases r.columnType? column with
  | none => rfl
  | some type => rfl

/-- The value of a placeholder is bound last. -/
theorem placeholder_snd (r : Resource) (values : List BindValue) (column : String) (value : Json) :
    (placeholder r values column value).2 = values ++ [boundValue r (column, value)] := by
  rw [placeholder, boundValue]
  cases r.columnType? column <;> rfl

/-- A placeholder binds one value. -/
theorem length_placeholder_snd (r : Resource) (values : List BindValue) (column : String)
    (value : Json) : (placeholder r values column value).2.length = values.length + 1 := by
  rw [placeholder_snd, List.length_append, List.length_singleton]

/-- The placeholders of fields are those of their columns. -/
theorem placeholders_fst (r : Resource) (values : List BindValue) (data : Fields) :
    (placeholders r values data).1 =
      columnPlaceholders r values.length (data.map Prod.fst) := by
  induction data generalizing values with
  | nil => rfl
  | cons field rest ih =>
    show (_, (placeholder r values field.1 field.2).1) ::
      (placeholders r (placeholder r values field.1 field.2).2 rest).1 = _
    rw [ih, placeholder_fst, length_placeholder_snd]
    rfl

/-- Fields take the places after some bound values, in order. -/
theorem placeholders_eq (r : Resource) (values : List BindValue) (data : Fields) :
    placeholders r values data =
      ((data.zipIdx (values.length + 1)).map fun (field, number) =>
          (field.1, ⟨number, r.columnType? field.1⟩),
        values ++ data.map (boundValue r)) := by
  induction data generalizing values with
  | nil => simp [placeholders]
  | cons field rest ih =>
    simp only [placeholders, ih, placeholder_fst, placeholder_snd, List.zipIdx_cons, List.map_cons,
      List.length_append, List.length_singleton, List.append_assoc, List.singleton_append]

/-- The placeholders of fields bind one value for each. -/
theorem length_placeholders_snd (r : Resource) (values : List BindValue) (data : Fields) :
    (placeholders r values data).2.length = values.length + data.length := by
  rw [placeholders_eq, List.length_append, List.length_map]

/-- Which fields a test on names keeps depends on the names alone. -/
theorem map_fst_filter_fst (keeps : String → Bool) (data : Fields) :
    (data.filter fun field => keeps field.1).map Prod.fst = (data.map Prod.fst).filter keeps := by
  rw [List.filter_map]
  rfl

/-- The fields that are written to columns are those whose names are columns. -/
theorem map_fst_columnFields (r : Resource) (data : Fields) :
    (columnFields r data).map Prod.fst = (data.map Prod.fst).filter r.hasColumn :=
  map_fst_filter_fst r.hasColumn data

/-- The fields that an update changes are those of columns other than the key. -/
theorem map_fst_changedFields (r : Resource) (data : Fields) :
    (r.changedFields data).map Prod.fst =
      (data.map Prod.fst).filter fun name => name ≠ r.primaryKey && r.hasColumn name :=
  map_fst_filter_fst (fun name => name ≠ r.primaryKey && r.hasColumn name) data

/-- Whether fields have a name depends on their names alone. -/
theorem has_eq_any_map_fst (data : Fields) (name : String) :
    Fields.has data name = (data.map Prod.fst).any fun other => other == name := by
  rw [List.any_map]
  rfl

/-- The rows of a change by key: the one with the next placeholder's key, unless it is in the trash.
-/
theorem rowOf_fst (r : Resource) (values : List BindValue) (id : Json) :
    (rowOf r values id).1 = ⟨tableOf r, r.primaryKey,
      .one ⟨values.length + 1, r.columnType? r.primaryKey⟩, r.softDeleteColumn⟩ := by
  show Rows.mk _ _ (.one (placeholder r values r.primaryKey id).1) _ = _
  rw [placeholder_fst]

/-- The key of a row is bound last. -/
theorem rowOf_snd (r : Resource) (values : List BindValue) (id : Json) :
    (rowOf r values id).2 = values ++ [boundValue r (r.primaryKey, id)] :=
  placeholder_snd r values r.primaryKey id

/-- The key of a row binds one value. -/
theorem length_rowOf_snd (r : Resource) (values : List BindValue) (id : Json) :
    (rowOf r values id).2.length = values.length + 1 :=
  length_placeholder_snd r values r.primaryKey id

end Records.Sql
