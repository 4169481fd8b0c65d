import Records.Proofs.Calls
import Records.Proofs.Sql.Writes
import Records.Proofs.Store.Insertion

/-!
# Writing to the database and to the store

The statement of a write and the write to the store are about the same columns.  An update sets the
fields that the data has for columns other than the key, and with them the time of the change
(`updates_agree`); an insertion gives the fields that the data has for columns, and the store fills
in what is left open (`insertions_agree`).
-/

set_option autoImplicit false

namespace Records

/-! ### Updates -/

namespace Sql

variable (r : Resource)

/-- The text of the placeholder for a value of a column, at a place among the bound values. -/
def valueText (number : Nat) (column : String) : List Char :=
  Placeholder.text ⟨number, r.columnType? column⟩

/-- The text that restricts a statement to the row of a key, one outside the trash. -/
def liveRowText (number : Nat) : List Char :=
  quoted r.primaryKey ++ " = ".toList ++ valueText r number r.primaryKey ++
    match r.softDeleteColumn with
    | some mark => " AND ".toList ++ quoted mark ++ " IS NULL".toList
    | none => []

/-- The statement of an update of the live row of a key by some fields: it sets exactly their
columns, and the time after them where that is due; without fields it fetches the row. -/
structure IsUpdate (id : Json) (written : Fields) (stamped : Bool) (bound : Bound Change) :
    Prop where
  fetches : written = [] → bound.statement.text =
    "SELECT * FROM ".toList ++ (tableOf r).text ++ " WHERE ".toList ++ liveRowText r 1
  sets : written ≠ [] → bound.statement.text =
    "UPDATE ".toList ++ (tableOf r).text ++ " SET ".toList ++
      listed
        ((written.zipIdx 1).map (fun (field, number) =>
            quoted field.1 ++ " = ".toList ++ valueText r number field.1) ++
          if stamped then [quoted "updated_at" ++ " = ".toList ++ "NOW()".toList] else []) ++
      " WHERE ".toList ++ liveRowText r (written.length + 1) ++ " RETURNING *".toList
  values : bound.values = written.map (boundValue r) ++ [boundValue r (r.primaryKey, id)]

/-- The text of an update that gives back its row. -/
theorem Change.text_update (rows : Rows) (sets : List (String × Assigned)) :
    (Change.update rows sets true).text =
      "UPDATE ".toList ++ rows.table.text ++ " SET ".toList ++ listed (sets.map assignedText) ++
        " WHERE ".toList ++ rows.text ++ " RETURNING *".toList :=
  rfl

/-- The rows of one key are restricted to the live one. -/
theorem Rows.text_one (number : Nat) :
    Rows.text ⟨tableOf r, r.primaryKey, .one ⟨number, r.columnType? r.primaryKey⟩,
      r.softDeleteColumn⟩ = liveRowText r number :=
  rfl

/-- An update is written for the fields that it changes and the time where that is due. -/
theorem update_isUpdate (id : Json) (data : Fields) :
    IsUpdate r id (r.changedFields data) (r.stampsUpdate data) (update r id data) := by
  constructor
  · intro hnone
    simp only [update, hnone, placeholders, List.isEmpty_nil, if_true, rowOf_fst]
    rfl
  · intro hsome
    have hempty : (r.changedFields data).isEmpty = false := by simpa using hsome
    simp only [update, hempty, placeholders_eq, rowOf_fst, List.nil_append, List.length_map,
      Bool.false_eq_true, if_false, List.length_nil, Nat.zero_add, List.map_map]
    rw [Change.text_update, Rows.text_one, List.map_append, List.map_map]
    cases r.stampsUpdate data <;> rfl
  · simp only [update, placeholders_eq, rowOf_snd, List.nil_append]
    split <;> rfl

end Sql

section

variable (r : Resource) (data : Fields)

/-- The changed fields are those in columns other than the key. -/
theorem Resource.changedFields_eq : r.changedFields data =
    data.filter fun field =>
      field.1 ≠ r.primaryKey ∧ field.1 ∈ r.columns.map Column.name := by
  refine List.filter_congr fun field _ => ?_
  rw [Bool.eq_iff_iff]
  simp [← Resource.hasColumn_iff]

/-- The time is stamped where the resource has its column and the data does not set it. -/
theorem Resource.stampsUpdate_eq : r.stampsUpdate data =
    decide ("updated_at" ∈ r.columns.map Column.name ∧ "updated_at" ∉ data.map Prod.fst) := by
  have hhas : Fields.has data "updated_at" = true ↔ "updated_at" ∈ data.map Prod.fst := by
    rw [Sql.has_eq_any_map_fst]
    simp
  rw [Bool.eq_iff_iff, decide_eq_true_iff, ← hhas, ← Resource.hasColumn_iff]
  simp [stampsUpdate, updatedColumn]

end

/-- A row before and after an update by some fields, which sets them and the time where that is due;
without fields the row stays as it is. -/
structure Row.IsUpdated (supply : Supply) (written : Fields) (stamped : Bool) (before after : Row) :
    Prop where
  unchanged : written = [] → after = before
  sets : ∀ field ∈ written, Fields.get? after field.1 = some field.2
  stamps : written ≠ [] → stamped = true →
    Fields.get? after "updated_at" = some (.str supply.now)
  keeps : ∀ name ∉ written.map Prod.fst,
    ¬ (written ≠ [] ∧ stamped = true ∧ name = "updated_at") →
      Fields.get? after name = Fields.get? before name

namespace Store

section

variable (supply : Supply) (r : Resource) {data : Fields}

/-- What an updated row holds under a name: the time where it is stamped, the data where it changes,
and what it held before. -/
theorem get?_updatedRow (distinct : (data.map Prod.fst).Nodup) (row : Row) (name : String) :
    Fields.get? (updatedRow supply r data row) name =
      if r.changedFields data ≠ [] ∧ r.stampsUpdate data = true ∧ name = "updated_at"
      then some (.str supply.now)
      else (Fields.get? (r.changedFields data) name).or (Fields.get? row name) := by
  have hchanges : ((r.changedFields data).map Prod.fst).Nodup :=
    distinct.sublist (List.filter_sublist.map Prod.fst)
  have hcondition : (!(r.changedFields data).isEmpty && r.stampsUpdate data) = true ↔
      r.changedFields data ≠ [] ∧ r.stampsUpdate data = true := by simp
  have hset := Fields.get?_foldl_put hchanges row name
  simp only [updatedRow]
  split
  · rename_i hdue
    obtain ⟨hsome, hstamp⟩ := hcondition.mp hdue
    rw [Fields.get?_put, hset]
    by_cases hname : name = "updated_at"
    · exact (if_pos hname.symm).trans (if_pos ⟨hsome, hstamp, hname⟩).symm
    · exact (if_neg (Ne.symm hname)).trans (if_neg fun h => hname h.2.2).symm
  · rename_i hdue
    rw [hset, if_neg fun h => hdue (hcondition.mpr ⟨h.1, h.2.1⟩)]

/-- A stored row is updated by the fields that change and the time where that is due. -/
theorem updatedRow_isUpdated (distinct : (data.map Prod.fst).Nodup) (row : Row) :
    Row.IsUpdated supply (r.changedFields data) (r.stampsUpdate data) row
      (updatedRow supply r data row) := by
  have hchanges : ((r.changedFields data).map Prod.fst).Nodup :=
    distinct.sublist (List.filter_sublist.map Prod.fst)
  constructor
  · intro hnone
    simp [updatedRow, hnone]
  · intro field hfield
    have hdata : field.1 ∈ data.map Prod.fst :=
      List.mem_map_of_mem (List.mem_of_mem_filter hfield)
    rw [get?_updatedRow supply r distinct, if_neg, Fields.get?_of_mem hchanges hfield,
      Option.some_or]
    rintro ⟨_, hstamp, hname⟩
    rw [Resource.stampsUpdate_eq, decide_eq_true_iff, ← hname] at hstamp
    exact hstamp.2 hdata
  · intro hsome hstamp
    rw [get?_updatedRow supply r distinct, if_pos ⟨hsome, hstamp, rfl⟩]
  · intro name hname hother
    rw [get?_updatedRow supply r distinct, if_neg hother, Fields.get?_eq_none_iff.mpr hname,
      Option.none_or]

end

/-- The statement of an update and the update of the store write the same: the fields that the data
has for columns other than the key, and with them the time of the change where the resource has a
column for it that the data leaves out.  Both are about a row outside the trash. -/
theorem updates_agree (r : Resource) {data : Fields} (distinct : (data.map Prod.fst).Nodup)
    (id : Json) (supply : Supply) (store : Store) :
    let names := r.columns.map Column.name
    let written := data.filter fun field => field.1 ≠ r.primaryKey ∧ field.1 ∈ names
    let stamped := decide ("updated_at" ∈ names ∧ "updated_at" ∉ data.map Prod.fst)
    let outcome := store.update supply r id data
    Sql.IsUpdate r id written stamped (Sql.update r id data) ∧
      (∀ before row after, store.rows r.name = before ++ row :: after →
        (∀ other ∈ before, ¬ (Row.isLive r other = true ∧ Row.hasKey r id other = true)) →
        Row.isLive r row = true → Row.hasKey r id row = true →
          ∃ changed, Row.IsUpdated supply written stamped row changed ∧
            outcome.1 = some changed ∧ outcome.2.rows r.name = before ++ changed :: after) ∧
      ((∀ row ∈ store.rows r.name, ¬ (Row.isLive r row = true ∧ Row.hasKey r id row = true)) →
        outcome = (none, store)) ∧
      ∀ name, name ≠ r.name → outcome.2.rows name = store.rows name := by
  intro names written stamped outcome
  have hwritten : r.changedFields data = written := Resource.changedFields_eq r data
  have hstamped : r.stampsUpdate data = stamped := Resource.stampsUpdate_eq r data
  have hunaddressed : ∀ row, ¬ (Row.isLive r row = true ∧ Row.hasKey r id row = true) →
      isAddressed r id row = false := by
    intro row hrow
    rwa [isAddressed, ← Bool.not_eq_true, Bool.and_eq_true]
  refine ⟨?_, ?_, ?_, ?_⟩
  · rw [← hwritten, ← hstamped]
    exact Sql.update_isUpdate r id data
  · intro before row after hrows hbefore hlive hkey
    have hrow : isAddressed r id row = true := (Bool.and_eq_true _ _).mpr ⟨hlive, hkey⟩
    -- the first live row with the key is the one that the statement restricts itself to
    have houtcome : outcome = _ := update_of_addressed supply hrows
      (fun other hother => hunaddressed other (hbefore other hother)) hrow data
    rw [houtcome, ← hwritten, ← hstamped]
    exact ⟨_, updatedRow_isUpdated supply r distinct row, rfl, rows_setRows store _ _⟩
  · intro hrows
    exact update_of_unaddressed supply (fun row hrow => hunaddressed row (hrows row hrow)) data
  · intro name hname
    exact write_rows_of_ne (Ne.symm hname) supply store (.update id data)

/-- The key and a field that is no column are left out of an update of the post outside the
trash. -/
theorem updates_agree_posts :
    let posts := Config.resolveResource
      { Config.postsDef with columns := Config.postsDef.columns ++ [.plain "updated_at"] }
    let data : Fields := [("title", .str "new"), ("id", .int 9), ("mood", .str "fine")]
    let trashed : Row := [("id", .int 1), ("deleted_at", .str "monday")]
    let row : Row := [("id", .int 1), ("title", .str "old"), ("updated_at", .null)]
    let store : Store := ⟨[("posts", [trashed, row])]⟩
    let supply : Supply := ⟨"tuesday", ""⟩
    (data.map Prod.fst).Nodup ∧
      String.ofList (Sql.update posts (.int 1) data).statement.text =
        "UPDATE \"public\".\"posts\" SET \"title\" = $1, \"updated_at\" = NOW()" ++
          " WHERE \"id\" = $2::bigint AND \"deleted_at\" IS NULL RETURNING *" ∧
      ∃ changed, Row.IsUpdated supply [("title", .str "new")] true row changed ∧
        (store.update supply posts (.int 1) data).2.rows "posts" = [trashed, changed] := by
  intro posts data trashed row store supply
  have distinct : (data.map Prod.fst).Nodup := by decide
  obtain ⟨_, hchanged, _, _⟩ := updates_agree posts distinct (.int 1) supply store
  obtain ⟨changed, hupdated, _, hrows⟩ := hchanged [trashed] row [] rfl
    (by decide +kernel) (by decide +kernel) (by decide +kernel)
  exact ⟨distinct, by decide +kernel, changed, hupdated, hrows⟩

end Store

/-! ### Insertions -/

namespace Sql

variable (r : Resource)

/-- The statement of an insertion of some fields, which lists the columns of exactly these and then
the places of their values. -/
structure IsInsertion (given : Fields) (bound : Bound Change) : Prop where
  defaults : given = [] → bound.statement.text =
    "INSERT INTO ".toList ++ (tableOf r).text ++ " DEFAULT VALUES".toList ++ " RETURNING *".toList
  lists : given ≠ [] → bound.statement.text =
    "INSERT INTO ".toList ++ (tableOf r).text ++
      (" (".toList ++ listed (given.map fun field => quoted field.1) ++ ") VALUES (".toList ++
        listed ((given.zipIdx 1).map fun (field, number) => valueText r number field.1) ++ [')']) ++
      " RETURNING *".toList
  values : bound.values = given.map (boundValue r)

/-- The text of an insertion with at least one value. -/
theorem Change.text_insert (table : TableRef) {values : List (String × Placeholder)}
    (h : values ≠ []) :
    (Change.insert table values).text =
      "INSERT INTO ".toList ++ table.text ++
        (" (".toList ++ listed (values.map fun value => quoted value.1) ++ ") VALUES (".toList ++
          listed (values.map fun value => value.2.text) ++ [')']) ++
        " RETURNING *".toList := by
  cases values with
  | nil => exact absurd rfl h
  | cons first rest => rfl

/-- An insertion lists the columns of the fields that are kept, with a placeholder for each value in
turn. -/
theorem insert_eq (data : Fields) :
    insert r data =
      ⟨.insert (tableOf r) (((columnFields r data).zipIdx 1).map fun (field, number) =>
          (field.1, ⟨number, r.columnType? field.1⟩)),
        (columnFields r data).map (boundValue r)⟩ := by
  rw [insert, placeholders_eq]
  rfl

/-- An insertion is written for the fields that are in columns. -/
theorem insert_isInsertion (data : Fields) :
    IsInsertion r (columnFields r data) (insert r data) := by
  rw [insert_eq]
  constructor
  · intro hnone
    rw [hnone]
    rfl
  · intro hsome
    have hcolumns : ((columnFields r data).zipIdx 1).map (fun (field, _) => quoted field.1) =
        (columnFields r data).map fun field => quoted field.1 := by
      conv_rhs => rw [← List.zipIdx_map_fst 1 (columnFields r data), List.map_map]
      rfl
    have hentries : ((columnFields r data).zipIdx 1).map (fun (field, number) =>
        (field.1, (⟨number, r.columnType? field.1⟩ : Placeholder))) ≠ [] := by simpa using hsome
    rw [Change.text_insert _ hentries, List.map_map, List.map_map, ← hcolumns]
    rfl
  · rfl

end Sql

/-- The fields that are written are those in columns. -/
theorem Resource.columnFields_eq (r : Resource) (data : Fields) : Sql.columnFields r data =
    data.filter fun field => field.1 ∈ r.columns.map Column.name := by
  refine List.filter_congr fun field _ => ?_
  rw [Bool.eq_iff_iff, decide_eq_true_iff, Resource.hasColumn_iff]

/-- A row that is inserted for some fields where a key may have been generated: it holds what they
give, else in the column of the key the key, else in the columns of the time the time. -/
structure Row.IsInserted (supply : Supply) (r : Resource) (key? : Option Json) (given : Fields)
    (row : Row) : Prop where
  complete : Row.Complete r row
  holds : ∀ field ∈ given, field.2.isNull = false → Fields.get? row field.1 = some field.2
  keyed : Row.present? given r.primaryKey = none →
    ∀ key, key? = some key → Fields.get? row r.primaryKey = some key
  timed : ∀ name ∈ r.columns.map Column.name, Row.present? given name = none →
    (name = r.primaryKey → key? = none) → name = r.timestampColumn ∨ name = "updated_at" →
      Fields.get? row name = some (.str supply.now)
  null : ∀ name ∈ r.columns.map Column.name, Row.present? given name = none →
    (name = r.primaryKey → key? = none) → name ≠ r.timestampColumn → name ≠ "updated_at" →
      Fields.get? row name = some .null

namespace Store

section

variable (supply : Supply) (r : Resource) (rows : List Row) (data : Fields)

/-- What is present in a new row: the data in columns, the key generated for it, and the time where
that is due. -/
theorem present?_newRow_given (name : String) :
    Row.present? (newRow supply r rows data) name =
      ((Row.present? (Sql.columnFields r data) name).or
        (if r.primaryKey = name then generatedKey? supply r rows else none)).or
        (if r.Stamps name then some (.str supply.now) else none) := by
  rw [present?_newRow, Row.present?, Row.present?, Sql.columnFields, Fields.get?_filter]
  split <;> rfl

variable {supply r rows data}

/-- A column that neither the data nor the key fills holds the time or nothing. -/
theorem present?_newRow_of_open {name : String}
    (hnone : Row.present? (Sql.columnFields r data) name = none)
    (hunkeyed : name = r.primaryKey → generatedKey? supply r rows = none) :
    Row.present? (newRow supply r rows data) name =
      if r.Stamps name then some (.str supply.now) else none := by
  have hkeyed : (if r.primaryKey = name then generatedKey? supply r rows else none) = none := by
    split
    · rename_i hname
      exact hunkeyed hname.symm
    · rfl
  rw [present?_newRow_given, hnone, hkeyed, Option.none_or, Option.none_or]

/-- A new row is inserted for the fields that are in columns. -/
theorem newRow_isInserted (hkey : r.primaryKey ∈ r.columns.map Column.name)
    (distinct : (data.map Prod.fst).Nodup) :
    Row.IsInserted supply r (generatedKey? supply r rows) (Sql.columnFields r data)
      (newRow supply r rows data) := by
  have hcomplete := complete_newRow supply rows data hkey
  have hholds : ∀ {name value}, Row.present? (newRow supply r rows data) name = some value →
      Fields.get? (newRow supply r rows data) name = some value :=
    fun h => (Json.present?_eq_some_iff.mp h).1
  refine ⟨hcomplete, ?_, ?_, ?_, ?_⟩
  · intro field hfield hvalue
    have hgiven : ((Sql.columnFields r data).map Prod.fst).Nodup :=
      distinct.sublist (List.filter_sublist.map Prod.fst)
    have hfound : Row.present? (Sql.columnFields r data) field.1 = some field.2 :=
      Json.present?_eq_some_iff.mpr ⟨Fields.get?_of_mem hgiven hfield, hvalue⟩
    apply hholds
    rw [present?_newRow_given, hfound, Option.some_or, Option.some_or]
  · intro hnone key hgenerated
    apply hholds
    rw [present?_newRow_given, hnone, if_pos rfl, hgenerated, Option.none_or, Option.some_or]
  · intro name hname hnone hunkeyed htime
    have hstamps : r.Stamps name :=
      ⟨(r.hasColumn_iff name).mpr hname, htime.imp Eq.symm Eq.symm⟩
    apply hholds
    rw [present?_newRow_of_open hnone hunkeyed, if_pos hstamps]
  · intro name hname hnone hunkeyed htimestamp hupdated
    -- a column that is neither given, generated nor stamped stays null
    have hunstamped : ¬ r.Stamps name := by
      rintro ⟨_, rfl | rfl⟩
      · exact htimestamp rfl
      · exact hupdated rfl
    rw [Row.get?_eq_some ((hcomplete.columns name).mpr hname),
      present?_newRow_of_open hnone hunkeyed, if_neg hunstamped]
    rfl

end

/-- The statement of an insertion and the insertion of the store write the same: the fields that the
data has for columns.  The store adds one row, which has the columns of the resource and no others;
columns that are left open hold a generated key, the time, or null. -/
theorem insertions_agree {defs : Definitions} {model : Model}
    (resolved : Config.resolve defs = .ok model) {r : Resource} (hr : r ∈ model.resources)
    {data : Fields} (distinct : (data.map Prod.fst).Nodup) (supply : Supply) (store : Store) :
    let given := data.filter fun field => field.1 ∈ r.columns.map Column.name
    let key? := generatedKey? supply r (store.rows r.name)
    let inserted := store.insert supply r data
    Sql.IsInsertion r given (Sql.insert r data) ∧
      Row.IsInserted supply r key? given inserted.1 ∧
      (match r.keyType with
        | .int | .bigInt => ∃ n, key? = some (.int n)
        | .uuid => key? = some (.str supply.identifier)
        | .text => key? = none) ∧
      inserted.2.rows r.name = store.rows r.name ++ [inserted.1] ∧
      ∀ name, name ≠ r.name → inserted.2.rows name = store.rows name := by
  intro given key? inserted
  have hgiven : Sql.columnFields r data = given := r.columnFields_eq data
  have hkey : r.primaryKey ∈ r.columns.map Column.name :=
    (r.hasColumn_iff _).mp (Config.columned_of_resolve resolved hr).key
  rw [← hgiven]
  refine ⟨Sql.insert_isInsertion r data, newRow_isInserted hkey distinct, ?_,
    rows_setRows store _ _, fun name hname => ?_⟩
  · simp only [key?, generatedKey?]
    cases r.keyType with
    | int | bigInt => exact ⟨_, rfl⟩
    | uuid | text => rfl
  · exact write_rows_of_ne (Ne.symm hname) supply store (.insert data)

/-- A post is added after one with the key four. -/
theorem insertions_agree_journal :
    let posts := Config.resolveResource Config.postsDef
    let data : Fields := [("mood", .str "fine"), ("title", .str "new")]
    let store : Store := ⟨[("posts", [[("id", .int 4)]])]⟩
    let supply : Supply := ⟨"tuesday", ""⟩
    (Config.resolve ⟨[Config.postsDef, Config.commentsDef]⟩ = .ok Config.journal ∧
        posts ∈ Config.journal.resources ∧ (data.map Prod.fst).Nodup) ∧
      String.ofList (Sql.insert posts data).statement.text =
        "INSERT INTO \"public\".\"posts\" (\"title\") VALUES ($1) RETURNING *" ∧
      Row.IsInserted supply posts (some (.int 5)) [("title", .str "new")]
        (store.insert supply posts data).1 := by
  intro posts data store supply
  have hposts : posts ∈ Config.journal.resources := List.mem_cons_self
  have distinct : (data.map Prod.fst).Nodup := by decide
  obtain ⟨_, hrow, _⟩ := insertions_agree Config.resolve_journal hposts distinct supply store
  exact ⟨⟨Config.resolve_journal, hposts, distinct⟩, by decide +kernel, hrow⟩

end Store

end Records
