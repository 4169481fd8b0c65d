import Records.Proofs.Http.Asked
import Records.Proofs.Store.Lookup

/-!
# The history of a store

A store changes by operations: its own, calls of services and requests.  An operation is one write
or none (`Operation.apply_eq_change`), and a write to a resource with a trash changes live rows in
place and adds rows at the end.  So a row in the trash stays where it is and as it is, whatever
happens later (`trash_is_frozen`).
-/

set_option autoImplicit false

namespace Records

/-- One operation on a store: its own seeding and writing, a call of a service, or a request. -/
inductive Operation where
  | seed (resource : String) (rows : List Json)
  | write (resource : String) (change : Store.Write)
  | call (flavor : Flavor) (resource : String) (given : Service.Call)
  | request (flavor : Flavor) (bodyLimit : Nat) (received : Http.Request)

namespace Operation

/-- The store after an operation, which may fail. -/
def apply (model : Model) (supply : Supply) (store : Store) : Operation → Store
  | .seed resource rows => (store.seed model resource rows).1
  | .write resource change =>
    match model.requireResource resource with
    | .ok r => store.write supply r change
    | .error _ => store
  | .call flavor resource given =>
    match Service.open? model flavor resource with
    | .ok service => (service.perform supply store given).2
    | .error _ => store
  | .request flavor bodyLimit received =>
    (Http.Site.handle ⟨model, flavor, bodyLimit⟩ supply store received).2

/-- The store after operations, each with what it takes from outside. -/
def run (model : Model) (store : Store) (steps : List (Supply × Operation)) : Store :=
  steps.foldl (fun store step => step.2.apply model step.1 store) store

/-- The write that an operation makes, and the resource to whose rows, if it makes one. -/
def change? (model : Model) (store : Store) : Operation → Option (Resource × Store.Write)
  | .seed resource rows => do
    let r ← (model.requireResource resource).toOption
    return (r, .seed rows)
  | .write resource change => do
    let r ← (model.requireResource resource).toOption
    return (r, change)
  | .call flavor resource given => do
    let service ← (Service.open? model flavor resource).toOption
    let change ← service.write? store given
    return (service.resource, change)
  | .request flavor bodyLimit received => do
    let (service, given) ← Http.Site.call? ⟨model, flavor, bodyLimit⟩ received
    let change ← service.write? store given
    return (service.resource, change)

variable {model : Model} {supply : Supply} {store : Store}

/-- An operation is the one write that it makes, or leaves the store. -/
theorem apply_eq_change (model : Model) (supply : Supply) (store : Store) (op : Operation) :
    op.apply model supply store =
      match op.change? model store with
      | some (r, change) => store.write supply r change
      | none => store := by
  cases op with
  | seed resource rows =>
    rw [apply, Store.seed, change?]
    cases model.requireResource resource <;> rfl
  | write resource change =>
    rw [apply, change?]
    cases model.requireResource resource <;> rfl
  | call flavor resource given =>
    rw [apply, change?]
    cases Service.open? model flavor resource with
    | error why => rfl
    | ok service =>
      simp only [Service.perform_store, Except.toOption, bind, Option.bind]
      cases service.write? store given <;> rfl
  | request flavor bodyLimit received =>
    rw [apply, change?, Http.Site.handle_store]
    cases Http.Site.call? ⟨model, flavor, bodyLimit⟩ received with
    | none => rfl
    | some asked =>
      simp only [Http.Site.left, Service.perform_store, bind, Option.bind]
      cases asked.1.write? store asked.2 <;> rfl

/-- A service that is opened is for a resource of its model. -/
theorem requireResource_of_open? {flavor : Flavor} {name : String} {service : Service}
    (h : Service.open? model flavor name = .ok service) :
    model.requireResource service.resource.name = .ok service.resource := by
  obtain ⟨rfl, _, hr⟩ := Service.open?_eq_ok h
  exact hr

/-- What an operation writes to is a resource of the model. -/
theorem requireResource_of_change? {op : Operation} {r : Resource} {change : Store.Write}
    (h : op.change? model store = some (r, change)) : model.requireResource r.name = .ok r := by
  cases op with
  | seed resource rows | write resource _ =>
    obtain ⟨found, hfound, h⟩ := Option.bind_eq_some_iff.mp h
    cases h
    have hr := Outcome.toOption_eq_some.mp hfound
    rw [Model.name_of_requireResource hr]
    exact hr
  | call flavor resource given =>
    obtain ⟨service, hopened, h⟩ := Option.bind_eq_some_iff.mp h
    obtain ⟨made, _, h⟩ := Option.bind_eq_some_iff.mp h
    cases h
    exact requireResource_of_open? (Outcome.toOption_eq_some.mp hopened)
  | request flavor bodyLimit received =>
    obtain ⟨⟨service, given⟩, hasked, h⟩ := Option.bind_eq_some_iff.mp h
    obtain ⟨made, _, h⟩ := Option.bind_eq_some_iff.mp h
    cases h
    obtain ⟨name, hopened⟩ := Http.Site.open?_of_call? hasked
    exact requireResource_of_open? hopened

/-- A store after one write to a resource of a model, or after none. -/
inductive Writes (model : Model) (supply : Supply) (store : Store) : Store → Prop
  | none : Writes model supply store store
  | one {r : Resource} (found : model.requireResource r.name = .ok r) (change : Store.Write) :
      Writes model supply store (store.write supply r change)

/-- An operation makes one write to a resource of the model, or none. -/
theorem apply_writes (model : Model) (supply : Supply) (store : Store) (op : Operation) :
    Writes model supply store (op.apply model supply store) := by
  rw [apply_eq_change]
  cases hchange : op.change? model store with
  | none => exact .none
  | some made => exact .one (requireResource_of_change? hchange) made.2

end Operation

namespace Store

/-- Rows of a resource that may have changed, except for those in the trash, and grown. -/
structure Frozen (r : Resource) (before after : List Row) : Prop where
  kept : ∀ (i : Nat) (row : Row),
    before[i]? = some row → Row.isLive r row = false → after[i]? = some row
  grown : before.length ≤ after.length

section

variable {r : Resource} {rows : List Row}

/-- Rows that stay are frozen. -/
theorem Frozen.refl (r : Resource) (rows : List Row) : Frozen r rows rows :=
  ⟨fun _ _ h _ => h, Nat.le_refl _⟩

/-- Rows in the trash that two changes leave are left by both. -/
theorem Frozen.trans {before between after : List Row} (h : Frozen r before between)
    (h' : Frozen r between after) : Frozen r before after := by
  constructor
  · intro i row hrow htrash
    exact h'.kept i row (h.kept i row hrow htrash) htrash
  · exact Nat.le_trans h.grown h'.grown

/-- Adding rows leaves those in the trash. -/
theorem frozen_append (r : Resource) (rows added : List Row) : Frozen r rows (rows ++ added) := by
  constructor
  · intro i row hrow _
    obtain ⟨hi, _⟩ := List.getElem?_eq_some_iff.mp hrow
    rw [List.getElem?_append_left hi]
    exact hrow
  · simp

/-- Rows that are changed in place, the live ones only, are frozen. -/
theorem frozen_map {change : Row → Row}
    (hchange : ∀ row ∈ rows, Row.isLive r row = false → change row = row) :
    Frozen r rows (rows.map change) := by
  constructor
  · intro i row hrow htrash
    rw [List.getElem?_map, hrow, Option.map_some,
      hchange row (List.mem_of_getElem? hrow) htrash]
  · simp

/-- Changing the first of the rows that pass leaves those in the trash when only live rows pass. -/
theorem frozen_changeFirst {test : Row → Bool} {change : Row → Row} {changed : Row}
    {left : List Row} (h : changeFirst test change rows = some (changed, left))
    (htest : ∀ row, test row = true → Row.isLive r row = true) : Frozen r rows left := by
  obtain ⟨before, old, after, rfl, _, hold, _, rfl⟩ := changeFirst_eq_some h
  have hlive := htest old hold
  constructor
  · intro i row hrow htrash
    rcases Nat.lt_trichotomy i before.length with hi | hi | hi
    · rw [List.getElem?_append_left hi] at hrow ⊢
      exact hrow
    · -- here the changed row stood, which was live
      rw [hi, List.getElem?_append_right (Nat.le_refl _), Nat.sub_self] at hrow
      cases hrow
      rw [hlive] at htrash
      cases htrash
    · rw [List.getElem?_append_right (Nat.le_of_lt hi)] at hrow ⊢
      rw [List.getElem?_cons, if_neg (Nat.sub_ne_zero_of_lt hi)] at hrow ⊢
      exact hrow
  · simp

/-- The outcome of a change leaves the rows in the trash when the change does. -/
theorem frozen_outcome {store : Store} {found : Option (Row × List Row)}
    (h : ∀ row left, found = some (row, left) → Frozen r (store.rows r.name) left) :
    Frozen r (store.rows r.name) ((store.outcome r found).2.rows r.name) := by
  cases found with
  | none => exact .refl r _
  | some out =>
    obtain ⟨row, left⟩ := out
    rw [outcome, rows_setRows]
    exact h row left rfl

/-- The objects in a list before the first value that is none. -/
def leadingObjects : List Json → List Fields
  | .obj fields :: rest => fields :: leadingObjects rest
  | _ => []

/-- Seeding adds the completed objects of a list up to the first value that is none. -/
theorem seedRows_eq_append (r : Resource) (rows : List Row) (given : List Json) :
    (seedRows r rows given).1 = rows ++ (leadingObjects given).map (completed r) := by
  induction given generalizing rows with
  | nil => exact (List.append_nil rows).symm
  | cons value rest ih =>
    cases value with
    | obj fields =>
      rw [seedRows, ih, leadingObjects, List.map_cons, List.append_assoc]
      rfl
    | _ => exact (List.append_nil rows).symm

/-- A row that is addressed is outside the trash. -/
theorem isLive_of_isAddressed {id : Json} {row : Row} (h : isAddressed r id row = true) :
    Row.isLive r row = true := by
  rw [isAddressed, Bool.and_eq_true] at h
  exact h.1

end

section

variable {model : Model} {r : Resource} {column : String} {store : Store}

/-- Each write to a resource with a trash changes live rows in place, or adds rows. -/
theorem write_frozen (hsoft : r.softDeleteColumn = some column) (supply : Supply)
    (change : Write) :
    Frozen r (store.rows r.name) ((store.write supply r change).rows r.name) := by
  cases change with
  | seed given =>
    rw [write, rows_setRows, seedRows_eq_append]
    exact frozen_append r _ _
  | insert data =>
    rw [write, insert, rows_setRows]
    exact frozen_append r _ _
  | update id data =>
    apply frozen_outcome
    intro row left hfound
    exact frozen_changeFirst hfound fun _ => isLive_of_isAddressed
  | delete id =>
    apply frozen_outcome
    intro row left hfound
    rw [hsoft] at hfound
    exact frozen_changeFirst hfound fun _ => isLive_of_isAddressed
  | deleteIn ids =>
    simp only [write, deleteIn, hsoft, rows_setRows]
    apply frozen_map
    intro row _ htrash
    -- a row in the trash is addressed by no key
    rw [isAddressedIn, htrash, Bool.false_and, if_neg Bool.false_ne_true]

/-- One write, to whichever resource it is, keeps the trash of a resource frozen. -/
theorem writes_frozen (hr : model.requireResource r.name = .ok r)
    (hsoft : r.softDeleteColumn = some column) {supply : Supply} {after : Store}
    (h : Operation.Writes model supply store after) :
    Frozen r (store.rows r.name) (after.rows r.name) := by
  cases h with
  | none => exact .refl r _
  | @one other hother change =>
    by_cases hname : other.name = r.name
    · rw [hname] at hother
      cases hr.symm.trans hother
      exact write_frozen hsoft supply change
    · -- the rows of other resources are stored apart
      rw [write_rows_of_ne hname]
      exact .refl r _

/-- Operations leave the rows that are in the trash before them. -/
theorem run_frozen (hr : model.requireResource r.name = .ok r)
    (hsoft : r.softDeleteColumn = some column) (store : Store) (steps : List (Supply × Operation)) :
    Frozen r (store.rows r.name) ((Operation.run model store steps).rows r.name) := by
  induction steps generalizing store with
  | nil => exact .refl r _
  | cons step rest ih =>
    obtain ⟨supply, op⟩ := step
    have hstep := writes_frozen hr hsoft (op.apply_writes model supply store)
    exact hstep.trans (ih (op.apply model supply store))

/-- From any point of a run to any later one, the rows of a resource that stand in its trash stay
where they are and as they are, and no rows are lost. -/
theorem trash_is_frozen (hr : model.requireResource r.name = .ok r)
    (hsoft : r.softDeleteColumn = some column) (store : Store)
    (earlier later : List (Supply × Operation)) :
    Frozen r ((Operation.run model store earlier).rows r.name)
      ((Operation.run model store (earlier ++ later)).rows r.name) := by
  rw [Operation.run, Operation.run, List.foldl_append]
  exact run_frozen hr hsoft _ later

/-- A deleted post is neither updated nor deleted again, and a post that is added with its key comes
after it. -/
theorem trash_is_frozen_journal :
    let posts := Config.resolveResource Config.postsDef
    let store : Store := ⟨[("posts", [[("id", .int 1), ("title", .str "old")]])]⟩
    let marked : Row := [("id", .int 1), ("title", .str "old"), ("deleted_at", .str "monday")]
    let earlier : List (Supply × Operation) :=
      [(⟨"monday", ""⟩, .write "posts" (.delete (.int 1)))]
    let later : List (Supply × Operation) :=
      [(⟨"tuesday", ""⟩, .call .api "posts" (.update (.int 1) [("title", .str "new")])),
        (⟨"friday", ""⟩, .seed "posts" [.obj [("id", .int 1)]]),
        (⟨"sunday", ""⟩, .request .api 1000 (Http.Request.to "DELETE" "/posts/1" none none))]
    Config.journal.requireResource posts.name = .ok posts ∧
      posts.softDeleteColumn = some "deleted_at" ∧
      ((Operation.run Config.journal store earlier).rows posts.name)[0]? = some marked ∧
      ((Operation.run Config.journal store (earlier ++ later)).rows posts.name)[0]? =
        some marked := by
  intro posts store marked earlier later
  have hr : Config.journal.requireResource posts.name = .ok posts := rfl
  have hsoft : posts.softDeleteColumn = some "deleted_at" := rfl
  have hmarked : ((Operation.run Config.journal store earlier).rows posts.name)[0]? =
      some marked := rfl
  have hfrozen := trash_is_frozen hr hsoft store earlier later
  exact ⟨hr, hsoft, hmarked, hfrozen.kept 0 marked hmarked rfl⟩

end

end Store

end Records
