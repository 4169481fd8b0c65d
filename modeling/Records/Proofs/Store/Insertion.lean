import Records.Proofs.Store.Lookup

/-!
# What an inserted row holds

A new row has the columns of its resource (`complete_newRow`).  It holds what the data gives them, a
key where the data gives none, and the time where nothing else stands (`present?_newRow`).  It is
stored last, so operations that are addressed by its key reach it alone when they reach no row
before it (`reachesLast_of_forall`).
-/

set_option autoImplicit false

namespace Records

/-- A value other than null that was put is present, and the others are as before. -/
theorem Row.present?_put {row : Row} {column name : String} {value : Json}
    (hvalue : value.isNull = false) :
    present? (Fields.put row column value) name =
      if column = name then some value else present? row name := by
  rw [present?, Fields.get?_put]
  split
  · exact Json.present?_eq_some_iff.mpr ⟨rfl, hvalue⟩
  · rfl

/-- A value that is stored is the one that is present, or null. -/
theorem Row.get?_eq_some {row : Row} {name : String} (h : name ∈ row.map Prod.fst) :
    Fields.get? row name = some ((present? row name).getD .null) := by
  rw [present?]
  cases hvalue : Fields.get? row name with
  | none => exact absurd h (Fields.get?_eq_none_iff.mp hvalue)
  | some value => cases value <;> rfl

/-- A row has the columns of its resource, each once, and no others. -/
structure Row.Complete (r : Resource) (row : Row) : Prop where
  distinct : (row.map Prod.fst).Nodup
  columns : ∀ name, name ∈ row.map Prod.fst ↔ name ∈ r.columns.map Column.name

/-- Putting a value into a column of the resource leaves a row complete. -/
theorem Row.Complete.put {r : Resource} {row : Row} (h : Complete r row) {column : String}
    (hcolumn : column ∈ r.columns.map Column.name) (value : Json) :
    Complete r (Fields.put row column value) := by
  have hnames : (Fields.put row column value).map Prod.fst = row.map Prod.fst :=
    Fields.map_fst_put_of_mem ((h.columns column).mpr hcolumn) value
  exact ⟨by rw [hnames]; exact h.distinct, fun name => by rw [hnames]; exact h.columns name⟩

/-- Whether an insertion gives a column the time when the data leaves it open. -/
def Resource.Stamps (r : Resource) (column : String) : Prop :=
  r.hasColumn column = true ∧ (r.timestampColumn = column ∨ Resource.updatedColumn = column)

instance (r : Resource) (column : String) : Decidable (r.Stamps column) :=
  inferInstanceAs (Decidable (_ ∧ _))

namespace Store

variable (supply : Supply) (r : Resource) (row : Row) (rows : List Row) (data : Fields)

/-- The columns of a new row hold the data, or null where it has nothing. -/
theorem get?_columnValues (name : String) :
    Fields.get? (columnValues r data) name =
      if r.hasColumn name then some ((Fields.get? data name).getD .null) else none := by
  have hvalues : columnValues r data =
      Fields.ofWritten ((r.columns.map Column.name).map fun n =>
        (n, (Fields.get? data n).getD .null)) := by
    rw [columnValues, List.map_map]
    rfl
  simp only [hvalues, Fields.get?_ofWritten_map, Resource.hasColumn_iff]

/-- What is present in a new row is what the data has in columns. -/
theorem present?_columnValues (name : String) :
    Row.present? (columnValues r data) name =
      if r.hasColumn name then Row.present? data name else none := by
  rw [Row.present?, get?_columnValues]
  split
  · rw [Row.present?]
    cases Fields.get? data name <;> rfl
  · rfl

/-- A value is filled in where none is present. -/
theorem present?_fillNull {value : Json} (hvalue : value.isNull = false) (column name : String) :
    Row.present? (fillNull row column value) name =
      (Row.present? row name).or (if column = name then some value else none) := by
  rw [fillNull]
  by_cases hname : column = name
  · subst hname
    cases hcolumn : Row.present? row column <;> simp [hcolumn, Row.present?_put hvalue]
  · cases Row.present? row column <;> simp [hname, Row.present?_put hvalue]

/-- The time is filled in where the resource has the column and no value is present. -/
theorem present?_fillTime (column name : String) :
    Row.present? (fillTime supply r row column) name =
      (Row.present? row name).or
        (if r.hasColumn name ∧ column = name then some (.str supply.now) else none) := by
  have hnow : (Json.str supply.now).isNull = false := rfl
  rw [fillTime]
  by_cases hname : column = name
  · subst hname
    by_cases hcolumn : r.hasColumn column = true <;> simp [hcolumn, present?_fillNull row hnow]
  · by_cases hcolumn : r.hasColumn column = true <;>
      simp [hcolumn, hname, present?_fillNull row hnow]

/-- A new row before the time is filled in. -/
def keyedRow : Row :=
  match generatedKey? supply r rows with
  | some key => fillNull (columnValues r data) r.primaryKey key
  | none => columnValues r data

/-- A generated key is not null. -/
theorem isNull_of_generatedKey? {key : Json} (h : generatedKey? supply r rows = some key) :
    key.isNull = false := by
  rw [generatedKey?] at h
  split at h <;> cases h <;> rfl

/-- Before the time is filled in, a new row has the data and a key, given or generated. -/
theorem present?_keyedRow (name : String) :
    Row.present? (keyedRow supply r rows data) name =
      (if r.hasColumn name then Row.present? data name else none).or
        (if r.primaryKey = name then generatedKey? supply r rows else none) := by
  rw [keyedRow, ← present?_columnValues]
  cases hkey : generatedKey? supply r rows with
  | none => simp
  | some key => exact present?_fillNull _ (isNull_of_generatedKey? supply r rows hkey) _ name

/-- A new row holds the value that the data gives a column, else in the column of the key the key
that is generated, else in the columns of the time the time. -/
theorem present?_newRow (name : String) :
    Row.present? (newRow supply r rows data) name =
      ((if r.hasColumn name then Row.present? data name else none).or
        (if r.primaryKey = name then generatedKey? supply r rows else none)).or
        (if r.Stamps name then some (.str supply.now) else none) := by
  show Row.present? (fillTime supply r (fillTime supply r (keyedRow supply r rows data)
    r.timestampColumn) Resource.updatedColumn) name = _
  rw [present?_fillTime, present?_fillTime, present?_keyedRow, Option.or_assoc]
  congr 1
  by_cases hcolumn : r.hasColumn name = true <;> by_cases htime : r.timestampColumn = name <;>
    simp [Resource.Stamps, hcolumn, htime]

/-- A new row has every column of its resource once. -/
theorem complete_columnValues : Row.Complete r (columnValues r data) where
  distinct := Fields.nodup_ofWritten _
  columns name := by
    rw [← Resource.hasColumn_iff, ← not_iff_not, ← Fields.get?_eq_none_iff, get?_columnValues]
    split <;> simp_all

variable {r row} in
/-- Filling in a column of the resource leaves a row complete. -/
theorem complete_fillNull (h : Row.Complete r row) {column : String}
    (hcolumn : column ∈ r.columns.map Column.name) (value : Json) :
    Row.Complete r (fillNull row column value) := by
  rw [fillNull]
  split
  · exact h
  · exact h.put hcolumn value

variable {r row} in
/-- Filling in the time leaves a row complete. -/
theorem complete_fillTime (h : Row.Complete r row) (column : String) :
    Row.Complete r (fillTime supply r row column) := by
  rw [fillTime]
  split
  · rename_i hcolumn
    exact complete_fillNull h ((r.hasColumn_iff column).mp hcolumn) _
  · exact h

variable {r} in
/-- A new row has the columns of its resource and no others, where the key is one of them. -/
theorem complete_newRow (hkey : r.primaryKey ∈ r.columns.map Column.name) :
    Row.Complete r (newRow supply r rows data) := by
  have hkeyed : Row.Complete r (keyedRow supply r rows data) := by
    rw [keyedRow]
    split
    · exact complete_fillNull (complete_columnValues r data) hkey _
    · exact complete_columnValues r data
  exact complete_fillTime supply (complete_fillTime supply hkeyed _) _

variable {supply r rows data} in
/-- A row that is given a key and no trash mark is live, unless the mark is stamped with the
time. -/
theorem isLive_newRow_iff (keyed : Row.present? data r.primaryKey ≠ none)
    (unmarked : ∀ mark ∈ r.softDeleteColumn, Row.present? data mark = none) :
    Row.isLive r (newRow supply r rows data) = true ↔
      ∀ mark ∈ r.softDeleteColumn, ¬ r.Stamps mark := by
  rw [Row.isLive]
  cases hmark : r.softDeleteColumn with
  | none => simp
  | some mark =>
    have hnone := unmarked mark hmark
    have hkey : r.primaryKey ≠ mark := by
      rintro rfl
      exact keyed hnone
    simp only [present?_newRow, hnone, if_neg hkey, ite_self, Option.none_or]
    by_cases hstamps : r.Stamps mark <;> simp [hstamps]

end Store

/-! ### Reaching the last row -/

namespace Service

/-- Operations addressed by a key reach the last row of a resource, and no row before it. -/
structure ReachesLast (service : Service) (store : Store) (id : Json) (others : List Row)
    (row : Row) : Prop where
  found : service.rowOfKey store id [] [] = .ok (.obj row)
  shown : ∀ (eager columns : List String) (query : Query),
    Listing.base service.resource eager columns = .ok query →
      service.rowOfKey store id eager columns =
        store.project service.model service.resource query row
  updated : ∀ (supply : Supply) (data : Fields),
    service.update supply store id data =
      (.ok (.obj (Store.updatedRow supply service.resource data row)),
        store.setRows service.resource.name
          (others ++ [Store.updatedRow supply service.resource data row]))
  deleted : ∀ supply : Supply,
    service.delete supply store id =
      match service.resource.softDeleteColumn with
      | some column => (.ok (.obj (Store.trash supply column row)),
          store.setRows service.resource.name (others ++ [Store.trash supply column row]))
      | none => (.ok (.obj row), store.setRows service.resource.name others)

variable {service : Service}

/-- A live row that is stored last is reached by its key when no row before it is. -/
theorem reachesLast_of_forall
    (hresource : service.model.requireResource service.resource.name = .ok service.resource)
    {store : Store} {id : Json} (hid : id.isNull = false) {others : List Row} {row : Row}
    (hrows : store.rows service.resource.name = others ++ [row])
    (hothers : ∀ other ∈ others, Store.isAddressed service.resource id other = false)
    (hrow : Store.isAddressed service.resource id row = true) :
    service.ReachesLast store id others row := by
  refine ⟨rowOfKey_nil_of_addressed hresource hid hrows hothers hrow, ?_, ?_, ?_⟩
  · exact fun eager columns query hbase =>
      rowOfKey_of_addressed hresource hid hbase hrows hothers hrow
  · exact update_of_addressed hrows hothers hrow
  · intro supply
    have hdeleted := delete_of_addressed hresource hid hrows hothers hrow supply
    rw [List.append_nil] at hdeleted
    exact hdeleted

end Service

end Records
