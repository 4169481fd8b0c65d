import Records.Proofs.Outcome
import Records.Proofs.Store.Changes
import Records.Service

/-!
# What a call of a service changes

A call of a service is one write to the rows of its resource, or none: reading changes nothing, and
neither does a call that fails (`perform_of_error`, `perform_store`).
-/

set_option autoImplicit false

namespace Records

/-- One change of the rows of a resource. -/
inductive Store.Write where
  | seed (rows : List Json)
  | insert (data : Fields)
  | update (id : Json) (data : Fields)
  | delete (id : Json)
  | deleteIn (ids : List Json)

/-- The store after a change of the rows of a resource. -/
def Store.write (supply : Supply) (store : Store) (r : Resource) : Write → Store
  | .seed rows => store.setRows r.name (seedRows r (store.rows r.name) rows).1
  | .insert data => (store.insert supply r data).2
  | .update id data => (store.update supply r id data).2
  | .delete id => (store.delete supply r id).2
  | .deleteIn ids => (store.deleteIn supply r ids).2

/-- What a client can ask of a service. -/
inductive Service.Call where
  | list (params : ListParams) (eager columns : List String)
  | rowOfKey (id : Json) (eager columns : List String)
  | rowOfSlug (slug : String) (eager columns : List String)
  | create (data : Fields)
  | update (id : Json) (data : Fields)
  | delete (id : Json)
  | deleteAll (ids : List Json)

/-- What a service gives. -/
inductive Service.Reply where
  | page (page : Page Json)
  | row (row : Json)
  | number (n : Nat)

/-- What a service gives for a call, and the store after it. -/
def Service.perform (service : Service) (supply : Supply) (store : Store) :
    Call → Except Fault Reply × Store
  | .list params eager columns => ((service.list store params eager columns).map .page, store)
  | .rowOfKey id eager columns => ((service.rowOfKey store id eager columns).map .row, store)
  | .rowOfSlug slug eager columns => ((service.rowOfSlug store slug eager columns).map .row, store)
  | .create data =>
    let (row, store) := service.create supply store data
    (.ok (.row (.obj row)), store)
  | .update id data =>
    let (row, store) := service.update supply store id data
    (row.map .row, store)
  | .delete id =>
    let (row, store) := service.delete supply store id
    (row.map .row, store)
  | .deleteAll ids =>
    let (n, store) := service.deleteAll supply store ids
    (.ok (.number n), store)

/-- The write that a call makes, if it makes one. -/
def Service.write? (service : Service) (store : Store) : Call → Option Store.Write
  | .create data => some (.insert data)
  | .update id data => some (.update id data)
  | .delete id =>
    match service.rowOfKey store id [] [] with
    | .ok _ => some (.delete id)
    | .error _ => none
  | .deleteAll ids => if ids.isEmpty then none else some (.deleteIn ids)
  | _ => none

/-- A write to one resource leaves the rows of every other. -/
theorem Store.write_rows_of_ne {r : Resource} {other : String} (h : r.name ≠ other)
    (supply : Supply) (store : Store) (write : Write) :
    (store.write supply r write).rows other = store.rows other := by
  have houtcome : ∀ found, (store.outcome r found).2.rows other = store.rows other := by
    intro found
    cases found with
    | none => rfl
    | some out => exact rows_setRows_of_ne h store out.2
  cases write with
  | seed rows => exact rows_setRows_of_ne h store _
  | insert data => exact rows_setRows_of_ne h store _
  | update id data => exact houtcome _
  | delete id => exact houtcome _
  | deleteIn ids => exact rows_setRows_of_ne h store _

namespace Service

variable {service : Service} {supply : Supply} {store : Store} {call : Call}

/-- A step that found no row leaves the store. -/
theorem outcome_of_error {r : Resource} {found : Option (Row × List Row)} {why : Fault}
    (h : requireRow (store.outcome r found).1 = .error why) :
    (store.outcome r found).2 = store := by
  cases found with
  | none => rfl
  | some out => cases h

/-- A row is deleted only where a look-up has found one. -/
theorem delete_eq (service : Service) (supply : Supply) (store : Store) (id : Json) :
    (∃ why, service.delete supply store id = (.error why, store)) ∨
      service.delete supply store id =
        (requireRow (store.delete supply service.resource id).1,
          (store.delete supply service.resource id).2) := by
  rw [delete]
  cases service.rowOfKey store id [] [] with
  | error why => exact .inl ⟨why, rfl⟩
  | ok row => exact .inr rfl

/-- A call that fails leaves the store as it was. -/
theorem perform_of_error {why : Fault} (h : (service.perform supply store call).1 = .error why) :
    (service.perform supply store call).2 = store := by
  cases call with
  | list params eager columns => rfl
  | rowOfKey id eager columns => rfl
  | rowOfSlug slug eager columns => rfl
  | create data => cases h
  | update id data => exact outcome_of_error (Outcome.map_eq_error.mp h)
  | delete id =>
    have hdelete : (service.delete supply store id).1 = .error why := Outcome.map_eq_error.mp h
    show (service.delete supply store id).2 = store
    rcases service.delete_eq supply store id with ⟨_, heq⟩ | heq
    · rw [heq]
    · rw [heq] at hdelete ⊢
      exact outcome_of_error hdelete
  | deleteAll ids => cases h

/-- What a call leaves is the store after the write that it makes, or the store itself. -/
theorem perform_store (service : Service) (supply : Supply) (store : Store) (call : Call) :
    (service.perform supply store call).2 =
      match service.write? store call with
      | some change => store.write supply service.resource change
      | none => store := by
  cases call with
  | delete id =>
    show (service.delete supply store id).2 = _
    rw [delete, write?]
    cases service.rowOfKey store id [] [] <;> rfl
  | deleteAll ids =>
    show (service.deleteAll supply store ids).2 = _
    rw [deleteAll, write?]
    cases ids.isEmpty <;> rfl
  | _ => rfl

end Service

end Records
