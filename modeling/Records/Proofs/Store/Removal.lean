import Records.Proofs.Store.Changes
import Records.Proofs.Config.Sound
import Records.Service

/-!
# Deleting many rows at once

Deleting the rows of some keys reaches exactly the live rows that have one of them
(`deleteAll_removes_addressed`): it counts each once, puts it into the trash where it stands or
takes it out where there is no trash, and leaves all others.  The keys count as a set, and once
their rows are deleted none of them addresses a row any more.
-/

set_option autoImplicit false

namespace Records

/-- A row before and after it is put into the trash: its mark is the time, and its other fields stay
as they are, in the same order. -/
structure Row.IsTrashed (supply : Supply) (mark : String) (before after : Row) : Prop where
  marked : Fields.get? after mark = some (.str supply.now)
  kept : (after.filter fun field => field.1 ≠ mark) = before.filter fun field => field.1 ≠ mark

/-- The rows of a resource before and after some of them are deleted: with a trash mark these are
put into the trash where they stand, and without one they are taken out from between the others. -/
structure Resource.Deletes (r : Resource) (supply : Supply) (hit : Row → Bool)
    (before after : List Row) : Prop where
  trashed : ∀ mark ∈ r.softDeleteColumn,
    List.Forall₂ (fun old new => if hit old then Row.IsTrashed supply mark old new else new = old)
      before after
  removed : r.softDeleteColumn = none → after = before.filter fun row => !hit row

namespace Store

variable {supply : Supply} {store : Store} {r : Resource} {ids : List Json} {mark : String}

/-- A row is put into the trash by setting its mark to the time. -/
theorem trash_isTrashed (supply : Supply) (mark : String) (row : Row) :
    Row.IsTrashed supply mark row (trash supply mark row) where
  marked := by rw [trash, Fields.get?_put, if_pos rfl]
  kept := Fields.filter_put row mark _

/-- A row that was put into the trash is no longer live. -/
theorem isLive_trash (hmark : r.softDeleteColumn = some mark) (supply : Supply) (row : Row) :
    Row.isLive r (trash supply mark row) = false := by
  have hmarked := (trash_isTrashed supply mark row).marked
  rw [Row.isLive, hmark]
  simp [Row.present?, hmarked, Json.present?]

/-- Which rows some keys address depends on the keys as a set. -/
theorem isAddressedIn_congr {others : List Json} (h : ∀ id, id ∈ others ↔ id ∈ ids) :
    isAddressedIn r others = isAddressedIn r ids := by
  funext row
  rw [isAddressedIn, isAddressedIn]
  congr 1
  rw [Bool.eq_iff_iff, List.any_eq_true, List.any_eq_true]
  simp only [h]

/-- One key addresses the same rows alone and in a list. -/
theorem isAddressedIn_singleton (r : Resource) (id : Json) :
    isAddressedIn r [id] = isAddressed r id := by
  funext row
  rw [isAddressedIn, isAddressed, List.any_cons, List.any_nil, Bool.or_false]

/-- The rows that are deleted are those whose keys are listed. -/
theorem rows_deleteIn (supply : Supply) (store : Store) (r : Resource) (ids : List Json) :
    r.Deletes supply (isAddressedIn r ids) (store.rows r.name)
      ((store.deleteIn supply r ids).2.rows r.name) := by
  rw [deleteIn, rows_setRows]
  constructor
  · intro mark hmark
    rw [Option.mem_def.mp hmark, List.forall₂_map_right_iff]
    refine List.forall₂_same.mpr fun row _ => ?_
    split
    · exact trash_isTrashed supply mark row
    · rfl
  · intro hmark
    rw [hmark]

/-- No row is addressed any more by keys whose rows have been deleted. -/
theorem isAddressedIn_of_mem_deleteIn {row : Row}
    (h : row ∈ (store.deleteIn supply r ids).2.rows r.name) : isAddressedIn r ids row = false := by
  rw [deleteIn, rows_setRows] at h
  cases hmark : r.softDeleteColumn with
  | none =>
    rw [hmark] at h
    simpa using (List.mem_filter.mp h).2
  | some mark =>
    rw [hmark] at h
    obtain ⟨old, _, rfl⟩ := List.mem_map.mp h
    split
    · rw [isAddressedIn, isLive_trash hmark, Bool.false_and]
    · rename_i hold
      exact Bool.not_eq_true _ ▸ hold

/-- Nothing is deleted where no row is addressed. -/
theorem deleteIn_of_unaddressed (h : ∀ row ∈ store.rows r.name, isAddressedIn r ids row = false)
    (supply : Supply) :
    (store.deleteIn supply r ids).1 = 0 ∧
      ∀ name, (store.deleteIn supply r ids).2.rows name = store.rows name := by
  constructor
  · exact List.countP_eq_zero.mpr fun row hrow => by simp [h row hrow]
  · intro name
    by_cases hname : r.name = name
    · subst hname
      rw [deleteIn, rows_setRows]
      cases r.softDeleteColumn with
      | none => exact List.filter_eq_self.mpr fun row hrow => by simp [h row hrow]
      | some mark =>
        refine (List.map_congr_left fun row hrow => ?_).trans (List.map_id _)
        rw [h row hrow]
        rfl
    · exact rows_setRows_of_ne hname store _

end Store

namespace Service

variable (service : Service)

/-- Deleting the rows of no keys leaves all rows, as it would if the store were searched. -/
theorem deleteAll_eq_deleteIn (supply : Supply) (store : Store) (ids : List Json) :
    (service.deleteAll supply store ids).1 = (store.deleteIn supply service.resource ids).1 ∧
      ∀ name, (service.deleteAll supply store ids).2.rows name =
        (store.deleteIn supply service.resource ids).2.rows name := by
  cases ids with
  | nil =>
    have hnone : ∀ row ∈ store.rows service.resource.name,
        Store.isAddressedIn service.resource [] row = false := by
      intro row _
      rw [Store.isAddressedIn, List.any_nil, Bool.and_false]
    obtain ⟨hcount, hrows⟩ := Store.deleteIn_of_unaddressed hnone supply
    exact ⟨hcount.symm, fun name => (hrows name).symm⟩
  | cons id rest => exact ⟨rfl, fun _ => rfl⟩

/-- Deleting depends on which keys are listed only, not on their order or how often. -/
theorem deleteAll_congr {ids others : List Json} (h : ∀ id, id ∈ others ↔ id ∈ ids)
    (supply : Supply) (store : Store) :
    service.deleteAll supply store others = service.deleteAll supply store ids := by
  have hempty : others.isEmpty = ids.isEmpty := by
    rw [Bool.eq_iff_iff, List.isEmpty_iff, List.isEmpty_iff, List.eq_nil_iff_forall_not_mem,
      List.eq_nil_iff_forall_not_mem]
    simp only [h]
  rw [deleteAll, deleteAll, hempty, Store.deleteIn, Store.deleteIn, Store.isAddressedIn_congr h]

/-- Deleting the rows of some keys deletes the live rows that have one of them, and counts them; the
keys count as a set, and deleting the same again changes nothing. -/
theorem deleteAll_removes_addressed (supply : Supply) (store : Store) (ids : List Json) :
    let r := service.resource
    let rows := store.rows r.name
    let hit := fun row => decide (Row.isLive r row = true ∧ ∃ id ∈ ids, Row.hasKey r id row = true)
    let deleted := service.deleteAll supply store ids
    deleted.1 = (rows.filter hit).length ∧
      r.Deletes supply hit rows (deleted.2.rows r.name) ∧
      (∀ name, name ≠ r.name → deleted.2.rows name = store.rows name) ∧
      (∀ others : List Json, (∀ id, id ∈ others ↔ id ∈ ids) →
        service.deleteAll supply store others = deleted) ∧
      ∀ later : Supply, (service.deleteAll later deleted.2 ids).1 = 0 ∧
        ∀ name, (service.deleteAll later deleted.2 ids).2.rows name = deleted.2.rows name := by
  intro r rows hit deleted
  have hhit : hit = Store.isAddressedIn r ids := by
    funext row
    rw [Bool.eq_iff_iff, decide_eq_true_iff, Store.isAddressedIn, Bool.and_eq_true,
      List.any_eq_true]
  obtain ⟨hcount, hrows⟩ := service.deleteAll_eq_deleteIn supply store ids
  refine ⟨?_, ?_, ?_, ?_, ?_⟩
  · rw [hcount, hhit, ← List.countP_eq_length_filter]
    rfl
  · rw [hrows, hhit]
    exact Store.rows_deleteIn supply store r ids
  · intro name hname
    rw [hrows]
    exact Store.rows_setRows_of_ne (Ne.symm hname) store _
  · exact fun others hothers => service.deleteAll_congr hothers supply store
  · intro later
    -- a second deletion finds no addressed row left
    have hnone : ∀ row ∈ deleted.2.rows r.name, Store.isAddressedIn r ids row = false := by
      rw [hrows]
      exact fun row => Store.isAddressedIn_of_mem_deleteIn
    obtain ⟨hlater, hleft⟩ := service.deleteAll_eq_deleteIn later deleted.2 ids
    obtain ⟨hzero, hkept⟩ := Store.deleteIn_of_unaddressed hnone later
    exact ⟨hlater.trans hzero, fun name => (hleft name).trans (hkept name)⟩

/-- Two posts share a key that is named twice, and a third post of that key is in the trash. -/
theorem deleteAll_removes_addressed_journal :
    let posts := Config.resolveResource Config.postsDef
    let service : Service := ⟨Config.journal, posts, .api⟩
    let post (key : Json) (mark : Json) : Row := [("id", key), ("deleted_at", mark)]
    let rows := [post (.int 1) (.str "monday"), post (.int 1) .null, post (.int 2) .null,
      post (.str "1") .null]
    let store : Store := ⟨[("posts", rows)]⟩
    let supply : Supply := ⟨"tuesday", ""⟩
    let hit := fun row => decide (Row.isLive posts row = true ∧
      ∃ id ∈ [Json.int 1], Row.hasKey posts id row = true)
    let deleted := service.deleteAll supply store [.int 1, .int 1]
    deleted.1 = 2 ∧ posts.Deletes supply hit rows (deleted.2.rows "posts") ∧
      (service.deleteAll ⟨"wednesday", ""⟩ deleted.2 [.int 1]).1 = 0 := by
  intro posts service post rows store supply hit deleted
  obtain ⟨hcount, hdeletes, _, hset, hagain⟩ :=
    deleteAll_removes_addressed service supply store [.int 1]
  have hdeleted : deleted = service.deleteAll supply store [.int 1] := hset _ (by simp)
  rw [hdeleted]
  exact ⟨hcount.trans (by decide +kernel), hdeletes, (hagain _).1⟩

end Service

end Records
