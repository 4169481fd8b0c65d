import Records.Proofs.Json.Fields
import Records.Store.Change

/-!
# What a change does to the rows

An update, and a deletion of one row, change or remove the first row that passes a test and leave
the rows before and after it (`changeFirst_eq_some`, `removeFirst_eq_some`), so they reach the first
row that is addressed, if there is one (`update_of_addressed`, `delete_of_addressed`).  Whatever a
test keeps apart from the changed rows is kept as it was, in the same order.
-/

set_option autoImplicit false

namespace Records.Store

/-- A resource has the rows that were set. -/
theorem rows_setRows (store : Store) (name : String) (rows : List Row) :
    (store.setRows name rows).rows name = rows := by
  obtain ⟨tables⟩ := store
  have hfind : (setTable name rows tables).find? (fun table => table.1 == name) =
      some (name, rows) := by
    induction tables with
    | nil => simp [setTable]
    | cons table rest ih =>
      obtain ⟨other, old⟩ := table
      by_cases hname : other = name
      · simp [setTable, hname]
      · simp [setTable, hname, ih]
  simp only [setRows, Store.rows, hfind]

/-- Setting the rows of one resource leaves those of another. -/
theorem rows_setRows_of_ne {name other : String} (h : name ≠ other) (store : Store)
    (rows : List Row) : (store.setRows name rows).rows other = store.rows other := by
  obtain ⟨tables⟩ := store
  have hfind : (setTable name rows tables).find? (fun table => table.1 == other) =
      tables.find? fun table => table.1 == other := by
    induction tables with
    | nil => simp [setTable, h]
    | cons table rest ih =>
      obtain ⟨first, old⟩ := table
      by_cases hfirst : first = name
      · subst hfirst
        simp [setTable, h]
      · simp [setTable, hfirst, List.find?_cons, ih]
  simp only [setRows, Store.rows, hfind]

/-- What is changed is the first row that passes, in its place. -/
theorem changeFirst_eq_some {test : Row → Bool} {change : Row → Row} {rows left : List Row}
    {changed : Row} (h : changeFirst test change rows = some (changed, left)) :
    ∃ before row after, rows = before ++ row :: after ∧ (∀ other ∈ before, test other = false) ∧
      test row = true ∧ changed = change row ∧ left = before ++ change row :: after := by
  induction rows generalizing left with
  | nil => cases h
  | cons first rest ih =>
    rw [changeFirst] at h
    by_cases hfirst : test first = true
    · rw [if_pos hfirst] at h
      cases h
      exact ⟨[], first, rest, rfl, by simp, hfirst, rfl, rfl⟩
    · rw [if_neg hfirst, Option.map_eq_some_iff] at h
      obtain ⟨⟨found, others⟩, hothers, h⟩ := h
      cases h
      obtain ⟨before, row, after, rfl, hbefore, hrow, rfl, rfl⟩ := ih hothers
      refine ⟨first :: before, row, after, rfl, ?_, hrow, rfl, rfl⟩
      exact List.forall_mem_cons.mpr ⟨by simpa using hfirst, hbefore⟩

/-- The first row that passes is changed in its place. -/
theorem changeFirst_append {test : Row → Bool} {row : Row} {before : List Row}
    (hbefore : ∀ other ∈ before, test other = false) (hrow : test row = true)
    (change : Row → Row) (after : List Row) :
    changeFirst test change (before ++ row :: after) =
      some (change row, before ++ change row :: after) := by
  induction before with
  | nil => simp [changeFirst, hrow]
  | cons other rest ih =>
    obtain ⟨hother, hrest⟩ := List.forall_mem_cons.mp hbefore
    simp [changeFirst, hother, ih hrest]

/-- Nothing is changed where no row passes. -/
theorem changeFirst_of_forall {test : Row → Bool} {rows : List Row}
    (h : ∀ row ∈ rows, test row = false) (change : Row → Row) :
    changeFirst test change rows = none := by
  induction rows with
  | nil => rfl
  | cons row rest ih =>
    obtain ⟨hrow, hrest⟩ := List.forall_mem_cons.mp h
    rw [changeFirst, ih hrest, hrow]
    rfl

/-- What is removed is the first row that passes. -/
theorem removeFirst_eq_some {test : Row → Bool} {rows left : List Row} {removed : Row}
    (h : removeFirst test rows = some (removed, left)) :
    ∃ before after, rows = before ++ removed :: after ∧ (∀ other ∈ before, test other = false) ∧
      test removed = true ∧ left = before ++ after := by
  induction rows generalizing left with
  | nil => cases h
  | cons first rest ih =>
    rw [removeFirst] at h
    by_cases hfirst : test first = true
    · rw [if_pos hfirst] at h
      cases h
      exact ⟨[], rest, rfl, by simp, hfirst, rfl⟩
    · rw [if_neg hfirst, Option.map_eq_some_iff] at h
      obtain ⟨⟨found, others⟩, hothers, h⟩ := h
      cases h
      obtain ⟨before, after, rfl, hbefore, hrow, rfl⟩ := ih hothers
      refine ⟨first :: before, after, rfl, ?_, hrow, rfl⟩
      exact List.forall_mem_cons.mpr ⟨by simpa using hfirst, hbefore⟩

/-- The first row that passes is removed from between the others. -/
theorem removeFirst_append {test : Row → Bool} {row : Row} {before : List Row}
    (hbefore : ∀ other ∈ before, test other = false) (hrow : test row = true) (after : List Row) :
    removeFirst test (before ++ row :: after) = some (row, before ++ after) := by
  induction before with
  | nil => simp [removeFirst, hrow]
  | cons other rest ih =>
    obtain ⟨hother, hrest⟩ := List.forall_mem_cons.mp hbefore
    simp [removeFirst, hother, ih hrest]

section

variable {test keep : Row → Bool} {change : Row → Row} {rows left : List Row} {row : Row}

/-- The rows that are kept apart from a change stay, in their order. -/
theorem filter_changeFirst (h : changeFirst test change rows = some (row, left))
    (htest : ∀ row, test row = true → keep row = false)
    (hchange : ∀ row, keep row = false → keep (change row) = false) :
    keep row = false ∧ left.filter keep = rows.filter keep := by
  obtain ⟨before, old, after, rfl, _, hold, rfl, rfl⟩ := changeFirst_eq_some h
  have hkept := htest old hold
  have hchanged := hchange old hkept
  exact ⟨hchanged, by simp [hkept, hchanged]⟩

/-- The rows that are kept apart from a removal stay, in their order. -/
theorem filter_removeFirst (h : removeFirst test rows = some (row, left))
    (htest : ∀ row, test row = true → keep row = false) :
    keep row = false ∧ left.filter keep = rows.filter keep := by
  obtain ⟨before, after, rfl, _, hrow, rfl⟩ := removeFirst_eq_some h
  have hkept := htest row hrow
  exact ⟨hkept, by simp [hkept]⟩

/-- The rows that are kept apart from a change of all that pass stay, in their order. -/
theorem filter_map_of_kept (htest : ∀ row, test row = true → keep row = false)
    (hchange : ∀ row, keep row = false → keep (change row) = false) :
    (rows.map fun row => if test row then change row else row).filter keep = rows.filter keep := by
  induction rows with
  | nil => rfl
  | cons row rest ih =>
    rw [List.map_cons, List.filter_cons, List.filter_cons, ih]
    by_cases hrow : test row = true
    · have hkept := htest row hrow
      simp [hrow, hkept, hchange row hkept]
    · simp [hrow]

/-- The rows that are kept apart from a removal of all that pass stay, in their order. -/
theorem filter_filter_of_kept (htest : ∀ row, test row = true → keep row = false) :
    (rows.filter fun row => !test row).filter keep = rows.filter keep := by
  rw [List.filter_filter]
  apply List.filter_congr
  intro row _
  cases hrow : test row with
  | false => simp
  | true => simp [htest row hrow]

end

/-! ### Rows that are addressed -/

section

variable (supply : Supply) {store : Store} {r : Resource} {id : Json} {before after : List Row}
  {row : Row}

/-- A row is addressed when it is outside the trash and has the key. -/
theorem isAddressed_eq_true :
    isAddressed r id row = true ↔ Row.isLive r row = true ∧ Row.hasKey r id row = true := by
  rw [isAddressed, Bool.and_eq_true]

/-- A row is not addressed when it is in the trash or has another key. -/
theorem isAddressed_eq_false :
    isAddressed r id row = false ↔ ¬ (Row.isLive r row = true ∧ Row.hasKey r id row = true) := by
  rw [← isAddressed_eq_true, Bool.not_eq_true]

/-- Without a trash every row is live, so a row is addressed by its key alone. -/
theorem isAddressed_eq_hasKey (hmark : r.softDeleteColumn = none) :
    isAddressed r id = Row.hasKey r id := by
  funext row
  rw [isAddressed, Row.isLive, hmark, Bool.true_and]

/-- An update changes the first row that is addressed. -/
theorem update_of_addressed (hrows : store.rows r.name = before ++ row :: after)
    (hbefore : ∀ other ∈ before, isAddressed r id other = false)
    (hrow : isAddressed r id row = true) (data : Fields) :
    store.update supply r id data =
      (some (updatedRow supply r data row),
        store.setRows r.name (before ++ updatedRow supply r data row :: after)) := by
  rw [update, hrows, changeFirst_append hbefore hrow]
  rfl

/-- An update under a key that addresses no row leaves the store. -/
theorem update_of_unaddressed (hrows : ∀ row ∈ store.rows r.name, isAddressed r id row = false)
    (data : Fields) : store.update supply r id data = (none, store) := by
  rw [update, changeFirst_of_forall hrows]
  rfl

/-- A deletion puts the first row that is addressed into the trash, or takes it out where there is
no trash. -/
theorem delete_of_addressed (hrows : store.rows r.name = before ++ row :: after)
    (hbefore : ∀ other ∈ before, isAddressed r id other = false)
    (hrow : isAddressed r id row = true) :
    store.delete supply r id =
      match r.softDeleteColumn with
      | some mark => (some (trash supply mark row),
          store.setRows r.name (before ++ trash supply mark row :: after))
      | none => (some row, store.setRows r.name (before ++ after)) := by
  rw [delete, hrows]
  cases hmark : r.softDeleteColumn with
  | some mark =>
    simp only
    rw [changeFirst_append hbefore hrow]
    rfl
  | none =>
    rw [isAddressed_eq_hasKey hmark] at hbefore hrow
    simp only
    rw [removeFirst_append hbefore hrow]
    rfl

end

end Records.Store
