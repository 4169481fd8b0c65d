import Records.Proofs.Config.Columns
import Records.Proofs.Store.Insertion
import Records.Proofs.Store.Provenance

/-!
# The shape of stored rows

A row comes with every column of its resource (`mem_names_completed`, `complete_newRow`).  From then
on writes give values only to columns, which the row has, and never to the key unless the key is a
column that writes stamp (`keepsShape_updatedRow`, `keepsShape_trash`).  So the names of the fields
of a stored row, and its key, are always those that it came with (`rows_keep_shape`).
-/

set_option autoImplicit false

namespace Records

/-- The key is not in a column that writes stamp on their own account: neither in the time of the
last change nor in the trash mark. -/
structure Resource.KeyApart (r : Resource) : Prop where
  updated : r.primaryKey ≠ Resource.updatedColumn
  mark : r.softDeleteColumn ≠ some r.primaryKey

/-- A change of a row leaves the names of its fields, and its key where that is apart. -/
structure Row.KeepsShape (r : Resource) (before after : Row) : Prop where
  names : after.map Prod.fst = before.map Prod.fst
  key : r.KeyApart → Fields.get? after r.primaryKey = Fields.get? before r.primaryKey

/-- A stored row that has the shape of its resource and of the row that came. -/
structure Traced.Shaped (r : Resource) (t : Traced) : Prop where
  columns : ∀ name ∈ r.columns.map Column.name, name ∈ t.current.map Prod.fst
  created : t.origin = .created →
    ∀ name ∈ t.current.map Prod.fst, name ∈ r.columns.map Column.name
  seeded : ∀ given, t.origin = .seeded given →
    ∀ name ∈ t.current.map Prod.fst,
      name ∈ given.map Prod.fst ∨ name ∈ r.columns.map Column.name
  shape : Row.KeepsShape r t.arrived t.current

section

variable {r : Resource} {row : Row} {column : String}

/-- Two changes that keep the shape of a row keep it together. -/
theorem Row.KeepsShape.trans {before between after : Row} (h : KeepsShape r before between)
    (h' : KeepsShape r between after) : KeepsShape r before after := by
  constructor
  · exact h'.names.trans h.names
  · intro apart
    exact (h'.key apart).trans (h.key apart)

/-- Putting a value into a field that is there keeps the shape, if the field is not the key's where
that is apart. -/
theorem Row.keepsShape_put (hcolumn : column ∈ row.map Prod.fst)
    (hkey : r.KeyApart → column ≠ r.primaryKey) (value : Json) :
    KeepsShape r row (Fields.put row column value) := by
  constructor
  · exact Fields.map_fst_put_of_mem hcolumn value
  · intro apart
    rw [Fields.get?_put, if_neg (hkey apart)]

namespace Store

/-- A completed row has the fields that it had and the columns of its resource. -/
theorem mem_names_completed (r : Resource) (row : Row) (name : String) :
    name ∈ (completed r row).map Prod.fst ↔
      name ∈ row.map Prod.fst ∨ name ∈ r.columns.map Column.name := by
  have hfold : ∀ (columns : List Column) (row : Row),
      name ∈ (columns.foldl (fun row column => Fields.putNew row column.name .null) row).map
          Prod.fst ↔
        name ∈ row.map Prod.fst ∨ name ∈ columns.map Column.name := by
    intro columns
    induction columns with
    | nil => simp
    | cons column rest ih =>
      intro row
      rw [List.foldl_cons, ih, Fields.mem_names_putNew, List.map_cons, List.mem_cons, or_assoc]
  exact hfold r.columns row

/-- An update gives values to columns other than the key, and then stamps the row. -/
theorem keepsShape_updatedRow (hrow : ∀ name ∈ r.columns.map Column.name, name ∈ row.map Prod.fst)
    (supply : Supply) (data : Fields) : Row.KeepsShape r row (updatedRow supply r data row) := by
  have hchanges : ∀ field ∈ r.changedFields data,
      field.1 ≠ r.primaryKey ∧ field.1 ∈ row.map Prod.fst := by
    intro field hfield
    have hkept := List.of_mem_filter hfield
    simp only [Bool.and_eq_true, decide_eq_true_eq] at hkept
    exact ⟨hkept.1, hrow _ ((r.hasColumn_iff _).mp hkept.2)⟩
  have hchanged : Row.KeepsShape r row ((r.changedFields data).foldl
      (fun row field => Fields.put row field.1 field.2) row) := by
    constructor
    · exact Fields.map_fst_foldl_put_of_mem fun field hfield => (hchanges field hfield).2
    · intro _
      exact Fields.get?_foldl_put_of_ne _ _ fun field hfield => (hchanges field hfield).1
  simp only [updatedRow]
  split
  · rename_i hstamps
    simp only [Resource.stampsUpdate, Bool.and_eq_true] at hstamps
    have hcolumn : Resource.updatedColumn ∈ row.map Prod.fst :=
      hrow _ ((r.hasColumn_iff _).mp hstamps.2.1)
    rw [← hchanged.names] at hcolumn
    exact hchanged.trans (Row.keepsShape_put hcolumn (fun apart => Ne.symm apart.updated) _)
  · exact hchanged

/-- Putting a row into the trash keeps its shape. -/
theorem keepsShape_trash (hrow : ∀ name ∈ r.columns.map Column.name, name ∈ row.map Prod.fst)
    (hmark : r.softDeleteColumn = some column) (hcolumn : r.hasColumn column = true)
    (supply : Supply) : Row.KeepsShape r row (trash supply column row) := by
  apply Row.keepsShape_put (hrow _ ((r.hasColumn_iff _).mp hcolumn))
  rintro apart rfl
  exact apart.mark hmark

end Store

namespace Traced

/-- A traced row is shaped after a change that keeps the shape of its row. -/
theorem Shaped.change {t : Traced} (h : t.Shaped r) {f : Row → Row}
    (hf : Row.KeepsShape r t.current (f t.current)) : (t.change f).Shaped r := by
  have hnames : (t.change f).current.map Prod.fst = t.current.map Prod.fst := hf.names
  constructor
  · rw [hnames]
    exact h.columns
  · rw [hnames]
    exact h.created
  · rw [hnames]
    exact h.seeded
  · exact h.shape.trans hf

/-- What a write leaves of rows that are shaped, and what it adds, is shaped. -/
theorem Follows.shaped {model : Model} (columned : r.Columned model) {supply : Supply}
    {traced : List Traced} (htraced : ∀ t ∈ traced, t.Shaped r) {t : Traced}
    (h : t.Follows supply r traced) : t.Shaped r := by
  cases h with
  | left before => exact htraced t before
  | seeded given =>
    have hnames := Store.mem_names_completed r given
    constructor
    · exact fun name hname => (hnames name).mpr (.inr hname)
    · exact fun horigin => nomatch horigin
    · intro _ horigin name hname
      cases horigin
      exact (hnames name).mp hname
    · exact ⟨rfl, fun _ => rfl⟩
  | created rows data =>
    -- a new row has the columns of its resource and no other field
    have hnew := Store.complete_newRow supply rows data ((r.hasColumn_iff _).mp columned.key)
    constructor
    · exact fun name hname => (hnew.columns name).mpr hname
    · exact fun _ name hname => (hnew.columns name).mp hname
    · exact fun _ horigin => nomatch horigin
    · exact ⟨rfl, fun _ => rfl⟩
  | updated before data =>
    have hold := htraced _ before
    exact hold.change (Store.keepsShape_updatedRow hold.columns supply data)
  | trashed before hmark =>
    have hold := htraced _ before
    exact hold.change (Store.keepsShape_trash hold.columns hmark (columned.mark _ hmark) supply)

end Traced

end

/-- After every run of operations on the empty store of a model, each stored row has the columns of
its resource; a created row has no other fields, and a seeded row no others than it was given.  The
names of its fields, and its key where that is apart, are those that it came with. -/
theorem rows_keep_shape {defs : Definitions} {model : Model} (h : Config.resolve defs = .ok model)
    (steps : List (Supply × Operation)) {r : Resource} (hr : r ∈ model.resources) :
    (Operation.run model {} steps).rows r.name =
        (Operation.ledger model steps r.name).map Traced.current ∧
      ∀ t ∈ Operation.ledger model steps r.name, t.Shaped r := by
  constructor
  · exact (Operation.shows_ledger model steps r.name).symm
  · apply Operation.forall_mem_ledgerFrom (Config.sound_of_resolve h) (P := fun r t => t.Shaped r)
    · intro supply r traced t hr htraced hfollows
      exact hfollows.shaped (Config.columned_of_resolve h hr) htraced
    · exact fun _ _ t ht => nomatch ht
    · exact hr

/-- A post that was seeded with a note keeps it, through an update that names a new key and a field
that is no column; a post that is created has neither; both are deleted in the end. -/
theorem rows_keep_shape_journal :
    let posts := Config.resolveResource Config.postsDef
    let steps : List (Supply × Operation) :=
      [(⟨"monday", ""⟩, .seed "posts" [.obj [("id", .int 1), ("note", .str "kept")]]),
        (⟨"tuesday", ""⟩, .call .api "posts" (.create [("title", .str "new"), ("role", .null)])),
        (⟨"friday", ""⟩, .call .api "posts" (.update (.int 1) [("id", .int 7), ("role", .null)])),
        (⟨"saturday", ""⟩, .call .api "posts" (.delete (.int 2))),
        (⟨"sunday", ""⟩, .request .api 1000 (Http.Request.to "DELETE" "/posts/1" none none))]
    let stored := (Operation.run Config.journal {} steps).rows posts.name
    let traced := Operation.ledger Config.journal steps posts.name
    Config.resolve ⟨[Config.postsDef, Config.commentsDef]⟩ = .ok Config.journal ∧
      posts ∈ Config.journal.resources ∧ posts.KeyApart ∧
      stored.map (fun row => row.map Prod.fst) =
        [["id", "note", "slug", "title", "created_at", "deleted_at"],
          ["id", "slug", "title", "created_at", "deleted_at"]] ∧
      stored = traced.map Traced.current ∧
      ∀ t ∈ traced, t.Shaped posts ∧
        Fields.get? t.current "id" = Fields.get? t.arrived "id" := by
  intro posts steps stored traced
  have hposts : posts ∈ Config.journal.resources := List.mem_cons_self
  have happart : posts.KeyApart := ⟨by decide, by decide⟩
  obtain ⟨hstored, hshaped⟩ := rows_keep_shape Config.resolve_journal steps hposts
  have hnames : stored.map (fun row => row.map Prod.fst) =
      [["id", "note", "slug", "title", "created_at", "deleted_at"],
        ["id", "slug", "title", "created_at", "deleted_at"]] := by
    decide +kernel
  refine ⟨Config.resolve_journal, hposts, happart, hnames, hstored, ?_⟩
  intro t ht
  exact ⟨hshaped t ht, (hshaped t ht).shape.key happart⟩

end Records
