import Mathlib.Logic.Function.Basic
import Records.Proofs.Store.History

/-!
# Where stored rows come from

A ledger goes along with a store.  It lists the rows of every resource, each with how it came and
with what it was when it came.  A write moves in the ledger what it moves in the store
(`shows_ledger`), and to a row that stays it does one of two things: it updates it or it puts it
into the trash (`follows_of_mem_trace`).
-/

set_option autoImplicit false

namespace Records

/-- How a row comes into a store: it is seeded with some fields, or created. -/
inductive Origin where
  | seeded (given : Fields)
  | created

/-- A stored row, with how it came and with what it was then. -/
structure Traced where
  origin : Origin
  arrived : Row
  current : Row

namespace Traced

/-- A row that is stored as it comes. -/
def arrive (origin : Origin) (row : Row) : Traced := ⟨origin, row, row⟩

/-- A row after a change, which stays the row that came. -/
def change (f : Row → Row) (t : Traced) : Traced := { t with current := f t.current }

/-- The rows that seeding adds. -/
def seeding (r : Resource) (given : List Json) : List Traced :=
  (Store.leadingObjects given).map fun fields =>
    arrive (.seeded fields) (Store.completed r fields)

/-- Changes the first row that passes a test. -/
def changeFirst (test : Row → Bool) (f : Row → Row) : List Traced → List Traced
  | [] => []
  | t :: rest => if test t.current then t.change f :: rest else t :: changeFirst test f rest

/-- Removes the first row that passes a test. -/
def removeFirst (test : Row → Bool) (traced : List Traced) : List Traced :=
  traced.eraseP fun t => test t.current

end Traced

/-- The rows of a resource after a write to them. -/
def Store.Write.trace (supply : Supply) (r : Resource) (traced : List Traced) :
    Store.Write → List Traced
  | .seed given => traced ++ Traced.seeding r given
  | .insert data =>
    traced ++ [.arrive .created (newRow supply r (traced.map Traced.current) data)]
  | .update id data => Traced.changeFirst (isAddressed r id) (updatedRow supply r data) traced
  | .delete id =>
    match r.softDeleteColumn with
    | some column => Traced.changeFirst (isAddressed r id) (trash supply column) traced
    | none => Traced.removeFirst (Row.hasKey r id) traced
  | .deleteIn ids =>
    match r.softDeleteColumn with
    | some column => traced.map fun t =>
      if isAddressedIn r ids t.current then t.change (trash supply column) else t
    | none => traced.filter fun t => !isAddressedIn r ids t.current

/-- The rows of every resource, by its name. -/
abbrev Ledger := String → List Traced

/-- The ledger after a write to the rows of a resource. -/
def Ledger.write (supply : Supply) (ledger : Ledger) (r : Resource) (change : Store.Write) :
    Ledger :=
  Function.update ledger r.name (change.trace supply r (ledger r.name))

namespace Operation

/-- The ledger after an operation. -/
def trace (model : Model) (supply : Supply) (store : Store) (ledger : Ledger) (op : Operation) :
    Ledger :=
  match op.change? model store with
  | some (r, change) => ledger.write supply r change
  | none => ledger

/-- The ledger after operations. -/
def ledgerFrom (model : Model) (store : Store) (ledger : Ledger) :
    List (Supply × Operation) → Ledger
  | [] => ledger
  | (supply, op) :: rest =>
    ledgerFrom model (op.apply model supply store) (op.trace model supply store ledger) rest

/-- The ledger after operations on an empty store. -/
def ledger (model : Model) (steps : List (Supply × Operation)) : Ledger :=
  ledgerFrom model {} (fun _ => []) steps

end Operation

/-! ### The ledger shows the store -/

namespace Traced

/-- Changing the first traced row that passes changes the row in the list of rows. -/
theorem map_current_changeFirst (test : Row → Bool) (f : Row → Row) (traced : List Traced) :
    (changeFirst test f traced).map current =
      ((Store.changeFirst test f (traced.map current)).map Prod.snd).getD
        (traced.map current) := by
  induction traced with
  | nil => rfl
  | cons t rest ih =>
    rw [changeFirst, List.map_cons, Store.changeFirst]
    split
    · rfl
    · rw [List.map_cons, ih]
      cases Store.changeFirst test f (rest.map current) <;> rfl

/-- Erasing the first row that passes is removing it, if there is one. -/
theorem eraseP_eq_removeFirst (test : Row → Bool) (rows : List Row) :
    rows.eraseP test = ((Store.removeFirst test rows).map Prod.snd).getD rows := by
  induction rows with
  | nil => rfl
  | cons row rest ih =>
    rw [Store.removeFirst]
    by_cases hrow : test row = true
    · rw [List.eraseP_cons_of_pos hrow, if_pos hrow]
      rfl
    · rw [List.eraseP_cons_of_neg hrow, if_neg hrow, ih]
      cases Store.removeFirst test rest <;> rfl

/-- Removing the first traced row that passes removes the row from the list of rows. -/
theorem map_current_removeFirst (test : Row → Bool) (traced : List Traced) :
    (removeFirst test traced).map current =
      ((Store.removeFirst test (traced.map current)).map Prod.snd).getD
        (traced.map current) := by
  rw [← eraseP_eq_removeFirst, List.eraseP_map]
  rfl

end Traced

/-- The rows after the outcome of a change are those that it left, if it found a row. -/
theorem Store.rows_outcome (store : Store) (r : Resource) (found : Option (Row × List Row)) :
    (store.outcome r found).2.rows r.name = (found.map Prod.snd).getD (store.rows r.name) := by
  cases found with
  | none => rfl
  | some out => exact rows_setRows store r.name out.2

section

variable {model : Model} {supply : Supply} {r : Resource} {store : Store} {traced : List Traced}
  {ledger : Ledger}

/-- The traced rows after a write are the rows of the store after it. -/
theorem Store.Write.map_current_trace (h : traced.map Traced.current = store.rows r.name)
    (change : Store.Write) :
    (change.trace supply r traced).map Traced.current =
      (store.write supply r change).rows r.name := by
  cases change with
  | seed given =>
    rw [trace, write, rows_setRows, seedRows_eq_append, List.map_append, h, Traced.seeding,
      List.map_map]
    rfl
  | insert data =>
    rw [trace, write, Store.insert, rows_setRows, List.map_append, h]
    rfl
  | update id data =>
    rw [trace, write, Store.update, rows_outcome, Traced.map_current_changeFirst, h]
  | delete id =>
    rw [trace, write, Store.delete, rows_outcome]
    cases r.softDeleteColumn with
    | some column => exact h ▸ Traced.map_current_changeFirst _ _ traced
    | none => exact h ▸ Traced.map_current_removeFirst _ traced
  | deleteIn ids =>
    rw [trace, write, Store.deleteIn, rows_setRows, ← h]
    cases r.softDeleteColumn with
    | some column =>
      simp only [List.map_map]
      -- marking a traced row marks the row that it shows
      apply List.map_congr_left
      intro t _
      simp only [Function.comp]
      split <;> rfl
    | none => exact (List.filter_map (p := fun row => !isAddressedIn r ids row)).symm

/-- A ledger lists the rows of a store. -/
def Ledger.Shows (ledger : Ledger) (store : Store) : Prop :=
  ∀ name, (ledger name).map Traced.current = store.rows name

/-- A ledger that lists a store does so after a write to both. -/
theorem Ledger.Shows.write (h : ledger.Shows store) (supply : Supply) (r : Resource)
    (change : Store.Write) :
    (ledger.write supply r change).Shows (store.write supply r change) := by
  intro name
  by_cases hname : r.name = name
  · subst hname
    rw [Ledger.write, Function.update_self]
    exact change.map_current_trace (h r.name)
  · rw [Ledger.write, Function.update_of_ne (Ne.symm hname), Store.write_rows_of_ne hname]
    exact h name

/-- A ledger that lists a store does so after an operation. -/
theorem Operation.shows_trace (h : ledger.Shows store) (supply : Supply) (op : Operation) :
    (op.trace model supply store ledger).Shows (op.apply model supply store) := by
  rw [apply_eq_change, trace]
  cases op.change? model store with
  | none => exact h
  | some made => exact h.write supply made.1 made.2

/-- A ledger that lists a store does so after operations. -/
theorem Operation.shows_ledgerFrom (h : ledger.Shows store) (steps : List (Supply × Operation)) :
    (ledgerFrom model store ledger steps).Shows (run model store steps) := by
  induction steps generalizing store ledger with
  | nil => exact h
  | cons step rest ih => exact ih (shows_trace h step.1 step.2)

/-- At the end of every run the ledger lists the rows that are stored. -/
theorem Operation.shows_ledger (model : Model) (steps : List (Supply × Operation)) :
    (Operation.ledger model steps).Shows (run model {} steps) :=
  shows_ledgerFrom (fun _ => rfl) steps

/-! ### What becomes of a row -/

/-- A row that is stored after a write: one that was stored before and that the write has left,
updated or put into the trash, or one that has just come. -/
inductive Traced.Follows (supply : Supply) (r : Resource) (traced : List Traced) : Traced → Prop
  | left {t : Traced} (before : t ∈ traced) : Follows supply r traced t
  | seeded (given : Fields) :
      Follows supply r traced (.arrive (.seeded given) (Store.completed r given))
  | created (rows : List Row) (data : Fields) :
      Follows supply r traced (.arrive .created (Store.newRow supply r rows data))
  | updated {t : Traced} (before : t ∈ traced) (data : Fields) :
      Follows supply r traced (t.change (Store.updatedRow supply r data))
  | trashed {t : Traced} (before : t ∈ traced) {column : String}
      (hcolumn : r.softDeleteColumn = some column) :
      Follows supply r traced (t.change (Store.trash supply column))

namespace Traced

variable {t : Traced}

/-- A traced row after a change was there before, or is one of those before, changed. -/
theorem mem_changeFirst {test : Row → Bool} {f : Row → Row} (h : t ∈ changeFirst test f traced) :
    t ∈ traced ∨ ∃ old ∈ traced, t = old.change f := by
  induction traced with
  | nil => cases h
  | cons first rest ih =>
    rw [changeFirst] at h
    split at h
    · rcases List.mem_cons.mp h with rfl | h
      · exact .inr ⟨first, List.mem_cons_self, rfl⟩
      · exact .inl (List.mem_cons_of_mem _ h)
    · rcases List.mem_cons.mp h with rfl | h
      · exact .inl List.mem_cons_self
      · rcases ih h with h | ⟨old, hold, rfl⟩
        · exact .inl (List.mem_cons_of_mem _ h)
        · exact .inr ⟨old, List.mem_cons_of_mem _ hold, rfl⟩

/-- Every traced row after a write was left by it, changed by it or has come with it. -/
theorem follows_of_mem_trace {change : Store.Write} (h : t ∈ change.trace supply r traced) :
    Follows supply r traced t := by
  cases change with
  | seed given =>
    rcases List.mem_append.mp h with h | h
    · exact .left h
    · obtain ⟨fields, _, rfl⟩ := List.mem_map.mp h
      exact .seeded fields
  | insert data =>
    rcases List.mem_append.mp h with h | h
    · exact .left h
    · rw [List.mem_singleton.mp h]
      exact .created _ data
  | update id data =>
    rcases mem_changeFirst h with h | ⟨old, hold, rfl⟩
    · exact .left h
    · exact .updated hold data
  | delete id =>
    rw [Store.Write.trace] at h
    -- with a trash mark the row is changed, without one it is gone
    cases hcolumn : r.softDeleteColumn with
    | some column =>
      rw [hcolumn] at h
      rcases mem_changeFirst h with h | ⟨old, hold, rfl⟩
      · exact .left h
      · exact .trashed hold hcolumn
    | none =>
      rw [hcolumn] at h
      exact .left (List.mem_of_mem_eraseP h)
  | deleteIn ids =>
    rw [Store.Write.trace] at h
    cases hcolumn : r.softDeleteColumn with
    | some column =>
      rw [hcolumn] at h
      obtain ⟨old, hold, rfl⟩ := List.mem_map.mp h
      split
      · exact .trashed hold hcolumn
      · exact .left hold
    | none =>
      rw [hcolumn] at h
      exact .left (List.mem_of_mem_filter h)

end Traced

/-- What holds of all rows that are stored, whatever a write does to them, holds after every
run. -/
theorem Operation.forall_mem_ledgerFrom (sound : model.Sound) {P : Resource → Traced → Prop}
    (hstep : ∀ (supply : Supply) (r : Resource) (traced : List Traced) (t : Traced),
      r ∈ model.resources → (∀ old ∈ traced, P r old) → t.Follows supply r traced → P r t)
    (steps : List (Supply × Operation))
    (h : ∀ r ∈ model.resources, ∀ t ∈ ledger r.name, P r t) :
    ∀ r ∈ model.resources, ∀ t ∈ ledgerFrom model store ledger steps r.name, P r t := by
  induction steps generalizing store ledger with
  | nil => exact h
  | cons step rest ih =>
    obtain ⟨supply, op⟩ := step
    apply ih
    intro r hr t ht
    rw [trace] at ht
    cases hchange : op.change? model store with
    | none =>
      rw [hchange] at ht
      exact h r hr t ht
    | some made =>
      obtain ⟨other, change⟩ := made
      simp only [hchange, Ledger.write] at ht
      by_cases hname : other.name = r.name
      · -- names are distinct, so the write is to the resource itself
        have hother := requireResource_of_change? hchange
        rw [hname, sound.requireResource_name hr] at hother
        cases hother
        rw [Function.update_self] at ht
        exact hstep supply r _ t hr (h r hr) (Traced.follows_of_mem_trace ht)
      · rw [Function.update_of_ne (Ne.symm hname)] at ht
        exact h r hr t ht

end

end Records
