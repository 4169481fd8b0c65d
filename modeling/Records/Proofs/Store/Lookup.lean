import Records.Proofs.Query.Assembly
import Records.Proofs.Store.Changes
import Records.Proofs.Store.Pages
import Records.Service

/-!
# Reaching a row by its key

A look-up by a key that is not null finds the first live row of that key (`rowOfKey_eq_find?`): the
query for it asks for no order, so the rows stay in the order in which they are stored.  An update
and a deletion change that same row (`update_of_addressed`, `delete_of_addressed`).
-/

set_option autoImplicit false

namespace Records

/-- Null agrees with no key. -/
theorem Json.agrees_null (id : Json) : Json.null.agrees id = false := by
  cases id <;> rfl

/-- A row has a key when the value of its key column agrees with it. -/
theorem Row.hasKey_eq_any (r : Resource) (id : Json) (row : Row) :
    Row.hasKey r id row = (Row.present? row r.primaryKey).any fun key => key.agrees id := by
  rw [hasKey, present?]
  cases hkey : Fields.get? row r.primaryKey with
  | none => rfl
  | some key =>
    cases key with
    | null => simp [Json.present?, Json.agrees_null]
    | _ => rfl

/-- A test for a key passes on the values that agree with it. -/
theorem Test.passes_equals {id : Json} (hid : id.isNull = false) (value : Option Json) :
    (Test.equals id).passes value = value.any fun v => v.agrees id := by
  cases id with
  | null => cases hid
  | _ => rfl

namespace Store

variable (model : Model) (store : Store) (r : Resource)

/-- Without an order the rows stay as they are. -/
theorem mergeSort_order_nil (rows : List Row) :
    (rows.mergeSort fun a b => (Row.order [] a b).isLE) = rows := by
  apply List.mergeSort_of_pairwise
  exact List.pairwise_of_forall fun _ _ => rfl

/-- The rows that answer the query for a key are the live rows of that key, as they are stored. -/
theorem matching_eq_filter_isAddressed {id : Json} (hid : id.isNull = false) {query : Query}
    (hlive : query.trashed = .without) (horder : query.order = [])
    (hclause : query.clause = [(.and, .condition r.primaryKey (.equals id))]) :
    store.matching model r query = .ok ((store.rows r.name).filter (isAddressed r id)) := by
  have hmatch : ∀ row ∈ store.rows r.name,
      store.isMatch model r query row = .ok (isAddressed r id row) := by
    intro row _
    have hholds : store.satisfies model r row query.clause = .ok (Row.hasKey r id row) := by
      rw [hclause, Row.hasKey_eq_any, ← Test.passes_equals hid]
      simp [satisfies, satisfiesPredicate, satisfiesFrom, bind, Except.bind]
    simp only [isMatch, isVisible, hlive, hholds, isAddressed]
    cases hrow : Row.isLive r row <;> simp
  rw [matching, passing_eq_filter hmatch, horder]
  exact congrArg Except.ok (mergeSort_order_nil _)

end Store

namespace Service

variable {service : Service} (store : Store) {id : Json} {eager columns : List String}
  {query : Query}

/-- What is known of a service that was opened. -/
theorem open?_eq_ok {model : Model} {flavor : Flavor} {name : String}
    (h : open? model flavor name = .ok service) :
    service.model = model ∧ service.flavor = flavor ∧
      service.model.requireResource service.resource.name = .ok service.resource := by
  obtain ⟨r, hr, rfl⟩ := Outcome.map_eq_ok.mp h
  refine ⟨rfl, rfl, ?_⟩
  rw [Model.name_of_requireResource hr]
  exact hr

/-- What a look-up shows is the first live row of the key. -/
theorem rowOfKey_eq_find?
    (hresource : service.model.requireResource service.resource.name = .ok service.resource)
    (hid : id.isNull = false) (hbase : Listing.base service.resource eager columns = .ok query) :
    service.rowOfKey store id eager columns =
      match (store.rows service.resource.name).find? (Store.isAddressed service.resource id) with
      | some row => store.project service.model service.resource query row
      | none => .error (.notFound .record) := by
  obtain ⟨rfl, _, _⟩ := Listing.base_eq_ok service.resource hbase
  let keyed : Query := {
    resource := service.resource.name
    columns := columns
    eager := eager
    clause := [(.and, .condition service.resource.primaryKey (.equals id))] }
  -- the key alone restricts the query, so the first match is the first addressed row
  have hmatching : store.matching service.model service.resource keyed =
      .ok ((store.rows service.resource.name).filter (Store.isAddressed service.resource id)) :=
    Store.matching_eq_filter_isAddressed service.model store service.resource hid rfl rfl rfl
  have hfirst :=
    Store.first?_eq_head? service.model store service.resource keyed hresource hmatching
  rw [List.head?_filter] at hfirst
  rw [rowOfKey, Outcome.bind_of_ok hbase, firstWith]
  show (store.first? service.model keyed >>= _) = _
  rw [hfirst]
  cases (store.rows service.resource.name).find? (Store.isAddressed service.resource id) with
  | none => rfl
  | some row =>
    show ((store.project service.model service.resource keyed row).map some >>= _) =
      store.project service.model service.resource keyed row
    cases store.project service.model service.resource keyed row <;> rfl

section

variable {store} {before after : List Row} {row : Row}

/-- What is shown under a key is the first row that it addresses. -/
theorem rowOfKey_of_addressed
    (hresource : service.model.requireResource service.resource.name = .ok service.resource)
    (hid : id.isNull = false) (hbase : Listing.base service.resource eager columns = .ok query)
    (hrows : store.rows service.resource.name = before ++ row :: after)
    (hbefore : ∀ other ∈ before, Store.isAddressed service.resource id other = false)
    (hrow : Store.isAddressed service.resource id row = true) :
    service.rowOfKey store id eager columns =
      store.project service.model service.resource query row := by
  have hfirst : (store.rows service.resource.name).find? (Store.isAddressed service.resource id) =
      some row := by
    rw [hrows, List.find?_append, List.find?_eq_none.mpr (by simpa using hbefore), Option.none_or,
      List.find?_cons_of_pos hrow]
  rw [rowOfKey_eq_find? store hresource hid hbase, hfirst]

/-- A look-up that names neither columns nor relations shows a row as it is stored. -/
theorem rowOfKey_nil_of_addressed
    (hresource : service.model.requireResource service.resource.name = .ok service.resource)
    (hid : id.isNull = false) (hrows : store.rows service.resource.name = before ++ row :: after)
    (hbefore : ∀ other ∈ before, Store.isAddressed service.resource id other = false)
    (hrow : Store.isAddressed service.resource id row = true) :
    service.rowOfKey store id [] [] = .ok (.obj row) := by
  have hbase : Listing.base service.resource [] [] = .ok { resource := service.resource.name } :=
    rfl
  exact rowOfKey_of_addressed hresource hid hbase hrows hbefore hrow

/-- Nothing is found under a key that addresses no row. -/
theorem rowOfKey_of_unaddressed
    (hresource : service.model.requireResource service.resource.name = .ok service.resource)
    (hid : id.isNull = false) (hbase : Listing.base service.resource eager columns = .ok query)
    (hrows : ∀ row ∈ store.rows service.resource.name,
      Store.isAddressed service.resource id row = false) :
    service.rowOfKey store id eager columns = .error (.notFound .record) := by
  rw [rowOfKey_eq_find? store hresource hid hbase, List.find?_eq_none.mpr (by simpa using hrows)]

/-- An update changes the first row that its key addresses, in its place, and gives it. -/
theorem update_of_addressed (hrows : store.rows service.resource.name = before ++ row :: after)
    (hbefore : ∀ other ∈ before, Store.isAddressed service.resource id other = false)
    (hrow : Store.isAddressed service.resource id row = true) (supply : Supply) (data : Fields) :
    service.update supply store id data =
      (.ok (.obj (Store.updatedRow supply service.resource data row)),
        store.setRows service.resource.name
          (before ++ Store.updatedRow supply service.resource data row :: after)) := by
  rw [update, Store.update_of_addressed supply hrows hbefore hrow]
  rfl

/-- A deletion, which looks a row up first, deletes the row that it has found. -/
theorem delete_of_addressed
    (hresource : service.model.requireResource service.resource.name = .ok service.resource)
    (hid : id.isNull = false) (hrows : store.rows service.resource.name = before ++ row :: after)
    (hbefore : ∀ other ∈ before, Store.isAddressed service.resource id other = false)
    (hrow : Store.isAddressed service.resource id row = true) (supply : Supply) :
    service.delete supply store id =
      match service.resource.softDeleteColumn with
      | some mark => (.ok (.obj (Store.trash supply mark row)),
          store.setRows service.resource.name (before ++ Store.trash supply mark row :: after))
      | none => (.ok (.obj row), store.setRows service.resource.name (before ++ after)) := by
  rw [delete, rowOfKey_nil_of_addressed hresource hid hrows hbefore hrow,
    Store.delete_of_addressed supply hrows hbefore hrow]
  cases service.resource.softDeleteColumn <;> rfl

end

end Service

end Records
