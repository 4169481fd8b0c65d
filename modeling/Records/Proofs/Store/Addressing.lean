import Records.Proofs.Query.Acceptance
import Records.Proofs.Store.Lookup
import Records.Proofs.Store.Removal

/-!
# One answer to whether a key exists

A look-up, an update, a deletion and a deletion of many rows search the store each in a way of its
own, but agree on whether a key that is not null exists and on the row that it stands for: the first
live row of the key, if there is one, is reached by all of them, and otherwise all of them miss
(`reached_or_missed`).
-/

set_option autoImplicit false

namespace Records.Service

variable {service : Service} {store : Store} {id : Json} {before after : List Row} {row : Row}

/-- Nothing is found under a key, and nothing is changed for it. -/
structure Misses (service : Service) (store : Store) (id : Json) : Prop where
  shown : ∀ eager columns, service.resource.CanShow eager columns →
    service.rowOfKey store id eager columns = .error (.notFound .record)
  updated : ∀ (supply : Supply) (data : Fields),
    service.update supply store id data = (.error (.notFound .record), store)
  deleted : ∀ supply : Supply, service.delete supply store id = (.error (.notFound .record), store)
  allDeleted : ∀ supply : Supply, (service.deleteAll supply store [id]).1 = 0 ∧
    ∀ name, (service.deleteAll supply store [id]).2.rows name = store.rows name

/-- A row, between the rows before and after it, is what is found under a key and changed for it. -/
structure Reaches (service : Service) (store : Store) (id : Json) (before : List Row) (row : Row)
    (after : List Row) : Prop where
  found : service.rowOfKey store id [] [] = .ok (.obj row)
  shown : ∀ eager columns, service.resource.CanShow eager columns →
    ∃ query shown, Listing.base service.resource eager columns = .ok query ∧
      store.project service.model service.resource query row = .ok shown ∧
      service.rowOfKey store id eager columns = .ok shown
  updated : ∀ (supply : Supply) (data : Fields),
    let changed := Store.updatedRow supply service.resource data row
    service.update supply store id data =
      (.ok (.obj changed), store.setRows service.resource.name (before ++ changed :: after))
  deleted : ∀ supply : Supply, service.delete supply store id =
    match service.resource.softDeleteColumn with
    | some mark => (.ok (.obj (Store.trash supply mark row)),
        store.setRows service.resource.name (before ++ Store.trash supply mark row :: after))
    | none => (.ok (.obj row), store.setRows service.resource.name (before ++ after))
  allDeleted : ∀ supply : Supply, 1 ≤ (service.deleteAll supply store [id]).1

/-- A key under which nothing is found reaches no row. -/
theorem Misses.not_reaches (hmisses : service.Misses store id) :
    ¬ service.Reaches store id before row after := by
  intro hreaches
  have hmissed := hmisses.shown [] [] ⟨List.forall_mem_nil _, List.forall_mem_nil _⟩
  rw [hreaches.found] at hmissed
  cases hmissed

section

variable
  (hresource : service.model.requireResource service.resource.name = .ok service.resource)
  (hid : id.isNull = false)

include hresource hid

/-- A key that addresses no row of its resource is one under which nothing is found. -/
theorem misses_of_unaddressed (hrows : ∀ row ∈ store.rows service.resource.name,
    Store.isAddressed service.resource id row = false) : service.Misses store id where
  shown eager columns hshow := by
    obtain ⟨query, hbase⟩ := Listing.exists_base_iff.mpr hshow
    exact rowOfKey_of_unaddressed hresource hid hbase hrows
  updated supply data := by
    rw [update, Store.update_of_unaddressed supply hrows]
    rfl
  deleted supply := by
    rw [delete, rowOfKey_of_unaddressed hresource hid rfl hrows]
  allDeleted supply := by
    rw [← Store.isAddressedIn_singleton] at hrows
    exact Store.deleteIn_of_unaddressed hrows supply

/-- A key reaches the first row that it addresses. -/
theorem reaches_of_addressed (sound : service.model.Sound)
    (hr : service.resource ∈ service.model.resources)
    (hrows : store.rows service.resource.name = before ++ row :: after)
    (hbefore : ∀ other ∈ before, Store.isAddressed service.resource id other = false)
    (hrow : Store.isAddressed service.resource id row = true) :
    service.Reaches store id before row after where
  found := rowOfKey_nil_of_addressed hresource hid hrows hbefore hrow
  shown eager columns hshow := by
    obtain ⟨query, hbase⟩ := Listing.exists_base_iff.mpr hshow
    obtain ⟨hquery, _, heager⟩ := Listing.base_eq_ok service.resource hbase
    have hrelated : ∀ name ∈ query.eager,
        ∃ found, service.model.related service.resource name = .ok found := by
      rw [hquery]
      exact fun name hname => sound.exists_related hr (heager name hname)
    obtain ⟨shown, hshown⟩ := Store.exists_project_eq_ok service.model store service.resource
      query row hrelated
    refine ⟨query, shown, hbase, hshown, ?_⟩
    rw [rowOfKey_of_addressed hresource hid hbase hrows hbefore hrow, hshown]
  updated := update_of_addressed hrows hbefore hrow
  deleted := delete_of_addressed hresource hid hrows hbefore hrow
  allDeleted supply := by
    show 1 ≤ (store.rows service.resource.name).countP (Store.isAddressedIn service.resource [id])
    rw [Store.isAddressedIn_singleton]
    exact List.countP_pos_iff.mpr ⟨row, by simp [hrows], hrow⟩

end

/-- Either every operation misses, or every operation reaches the first live row of the key; never
both. -/
theorem reached_or_missed {defs : Definitions} {model : Model} {flavor : Flavor} {name : String}
    (resolved : Config.resolve defs = .ok model) (opened : open? model flavor name = .ok service)
    (store : Store) (hid : id.isNull = false) :
    let rows := store.rows service.resource.name
    let addressed := fun row =>
      Row.isLive service.resource row = true ∧ Row.hasKey service.resource id row = true
    Xor (service.Misses store id)
      (∃ before row after, rows = before ++ row :: after ∧
        (∀ other ∈ before, ¬ addressed other) ∧ addressed row ∧
        service.Reaches store id before row after) := by
  intro rows addressed
  obtain ⟨rfl, _, hresource⟩ := open?_eq_ok opened
  have hr := Model.mem_of_requireResource hresource
  -- all four operations go by the first row that the key addresses
  cases hfirst : rows.find? (Store.isAddressed service.resource id) with
  | none =>
    have hnone : ∀ row ∈ rows, Store.isAddressed service.resource id row = false := by
      simpa using List.find?_eq_none.mp hfirst
    have hmisses := misses_of_unaddressed hresource hid hnone
    refine .inl ⟨hmisses, ?_⟩
    rintro ⟨before, row, after, _, _, _, hreaches⟩
    exact hmisses.not_reaches hreaches
  | some row =>
    obtain ⟨hrow, before, after, hrows, hbefore⟩ := List.find?_eq_some_iff_append.mp hfirst
    have hbefore : ∀ other ∈ before, Store.isAddressed service.resource id other = false := by
      simpa using hbefore
    have hreaches := reaches_of_addressed hresource hid (Config.sound_of_resolve resolved) hr hrows
      hbefore hrow
    refine .inr ⟨⟨before, row, after, hrows, ?_, Store.isAddressed_eq_true.mp hrow, hreaches⟩, ?_⟩
    · exact fun other hother => Store.isAddressed_eq_false.mp (hbefore other hother)
    · exact fun hmisses => hmisses.not_reaches hreaches

/-- Of a post in the trash and two live posts of one key, every operation reaches the first that is
live; none reaches a post of another key. -/
theorem reached_or_missed_journal :
    let service : Service := ⟨Config.journal, Config.resolveResource Config.postsDef, .api⟩
    let post (title : String) (mark : Json) : Row :=
      [("id", .int 1), ("title", .str title), ("deleted_at", mark)]
    let old := post "old" (.str "monday")
    let store : Store := ⟨[("posts", [old, post "new" .null, post "newer" .null])]⟩
    (Config.resolve ⟨[Config.postsDef, Config.commentsDef]⟩ = .ok Config.journal ∧
        open? Config.journal .api "posts" = .ok service ∧ (Json.str "1").isNull = false ∧
        (Json.int 2).isNull = false) ∧
      service.Reaches store (.str "1") [old] (post "new" .null) [post "newer" .null] ∧
      service.Misses store (.int 2) := by
  intro service post old store
  have opened : open? Config.journal .api "posts" = .ok service := rfl
  have hfirst : (Json.str "1").isNull = false := rfl
  have hother : (Json.int 2).isNull = false := rfl
  refine ⟨⟨Config.resolve_journal, opened, hfirst, hother⟩, ?_, ?_⟩
  · obtain ⟨hmisses, _⟩ | ⟨⟨before, row, after, hrows, hbefore, hrow, hreaches⟩, _⟩ :=
      reached_or_missed Config.resolve_journal opened store hfirst
    · exact absurd (hmisses.allDeleted ⟨"", ""⟩).1 (by decide +kernel)
    · have hrows : [old, post "new" .null, post "newer" .null] = before ++ row :: after := hrows
      match before, hrows with
      | [], hrows =>
        obtain ⟨rfl, _⟩ := List.cons.inj hrows
        exact absurd hrow.1 (by decide +kernel)
      | [_], hrows =>
        cases hrows
        exact hreaches
      | _ :: other :: _, hrows =>
        obtain ⟨_, hrows⟩ := List.cons.inj hrows
        obtain ⟨rfl, _⟩ := List.cons.inj hrows
        exact absurd (hbefore (post "new" .null) (by simp)) (by decide +kernel)
  · obtain ⟨hmisses, _⟩ | ⟨⟨before, row, after, hrows, _, hrow, _⟩, _⟩ :=
      reached_or_missed Config.resolve_journal opened store hother
    · exact hmisses
    · have hmem : row ∈ store.rows service.resource.name := by simp [hrows]
      have hnone : ∀ row ∈ store.rows service.resource.name,
          ¬ Row.hasKey service.resource (.int 2) row = true := by decide +kernel
      exact absurd hrow.2 (hnone row hmem)

end Records.Service
