import Mathlib.Algebra.Order.Floor.Div
import Records.Proofs.Config.Sound
import Records.Proofs.Store.Pages

/-!
# Pages divide an answer

The pages of a query, put one after another, are its answer (`pages_partition`).  The number of rows
before a page is cut off at the greatest 64-bit integer; that is past the end of every table, so a
page so far out is empty.
-/

set_option autoImplicit false

namespace Records

section Slices

variable {α : Type} (l : List α) (size : Nat)

/-- The members of a list on the page of a number. -/
def slice (number : Nat) : List α :=
  (l.drop ((number - 1) * size)).take size

/-- A page that begins behind the last row is empty. -/
theorem slice_eq_nil {number : Nat} (h : l.length ≤ (number - 1) * size) :
    slice l size number = [] := by
  rw [slice, List.drop_eq_nil_of_le h, List.take_nil]

/-- The first pages together are the beginning of the list. -/
theorem flatMap_slice (count : Nat) :
    (List.range' 1 count).flatMap (slice l size) = l.take (count * size) := by
  induction count with
  | zero => simp
  | succ count ih =>
    have hlast : slice l size (1 + count) = (l.drop (count * size)).take size := by
      rw [slice, Nat.add_sub_cancel_left]
    rw [List.range'_1_concat, List.flatMap_append, ih, List.flatMap_singleton, hlast,
      Nat.succ_mul, List.take_add]

/-- As many pages as it takes hold the whole list. -/
theorem length_le_mul_of_ceilDiv_le (hsize : 1 ≤ size) {count : Nat}
    (h : l.length ⌈/⌉ size ≤ count) : l.length ≤ count * size := by
  rw [Nat.mul_comm]
  exact (ceilDiv_le_iff_le_mul hsize).mp h

end Slices

/-- A cut-off offset lies past the end where the true one does. -/
theorem Paging.drop_offset {α : Type} (l : List α) (paging : Paging)
    (small : l.length ≤ Numeral.greatestNat64) :
    l.drop paging.offset = l.drop ((paging.page - 1) * paging.perPage) := by
  rw [offset]
  by_cases h : (paging.page - 1) * paging.perPage ≤ Numeral.greatestNat64
  · rw [Nat.min_eq_left h]
  · rw [Nat.min_eq_right (by omega), List.drop_eq_nil_of_le small,
      List.drop_eq_nil_of_le (by omega)]

/-- The last page is the number of rows over those of a page, rounded up, and the first one when
there are no rows. -/
theorem Paging.lastPage_eq_ceilDiv (paging : Paging) (hperPage : 1 ≤ paging.perPage) (total : Nat) :
    paging.lastPage total = max 1 (total ⌈/⌉ paging.perPage) := by
  rw [lastPage, Nat.ceilDiv_eq_add_pred_div, Nat.max_eq_left hperPage, Nat.max_comm]

namespace Store

variable (model : Model) (store : Store) (r : Resource) (query : Query)

/-- The whole answer to a query: all rows that answer it, in its order, as they are shown. -/
def answer : Except Fault (List Json) := do
  let r ← model.requireResource query.resource
  let rows ← store.matching model r query
  rows.mapM (store.project model r query)

/-- No more rows match a query than are stored. -/
theorem length_matching_le {rows : List Row} (h : store.matching model r query = .ok rows) :
    rows.length ≤ (store.rows r.name).length := by
  obtain ⟨passed, hpassed, rfl⟩ := Outcome.map_eq_ok.mp h
  obtain ⟨_, rfl⟩ := passing_eq_ok.mp hpassed
  rw [List.length_mergeSort]
  exact List.length_filter_le _ _

variable {model store r query}

/-- A query is answered by its rows as they are to be shown. -/
theorem answer_eq_ok {shown : List Json} :
    store.answer model query = .ok shown ↔
      ∃ r, model.requireResource query.resource = .ok r ∧
        ∃ rows, store.matching model r query = .ok rows ∧
          rows.mapM (store.project model r query) = .ok shown := by
  simp only [answer, Outcome.bind_eq_ok]

/-- The first of the shown rows is what is shown of the first row. -/
theorem first?_of_mapM_eq_ok {rows : List Row} {shown : List Json}
    (hresource : model.requireResource query.resource = .ok r)
    (hrows : store.matching model r query = .ok rows)
    (hshown : rows.mapM (store.project model r query) = .ok shown) :
    store.first? model query = .ok shown.head? := by
  rw [first?_eq_head? model store r query hresource hrows]
  cases Outcome.mapM_eq_ok.mp hshown with
  | nil => rfl
  | cons hfirst _ => exact Outcome.map_eq_ok.mpr ⟨_, hfirst, rfl⟩

/-- A page is the part at its place of the answer, however far out it is. -/
theorem page_eq_slice {shown : List Json} (h : store.answer model query = .ok shown)
    (small : (store.rows query.resource).length < 2 ^ 64) {perPage : Nat} (hperPage : 1 ≤ perPage)
    (number : Nat) :
    store.page model query ⟨number, perPage⟩ =
      .ok ⟨slice shown perPage number, shown.length, number, perPage,
        max 1 (shown.length ⌈/⌉ perPage)⟩ := by
  obtain ⟨r, hresource, rows, hrows, hshown⟩ := answer_eq_ok.mp h
  have hlength : rows.length = shown.length := (Outcome.mapM_eq_ok.mp hshown).length_eq
  have hname := Model.name_of_requireResource hresource
  have hsmall : shown.length ≤ Numeral.greatestNat64 := by
    have hle := length_matching_le model store r query hrows
    rw [hname] at hle
    rw [Numeral.greatestNat64]
    omega
  rw [page_eq_ok model store r query hresource hrows hshown, Paging.drop_offset _ _ hsmall, hlength,
    Page.of, Paging.lastPage_eq_ceilDiv _ hperPage]
  rfl

/-- The first pages, one after another, show the beginning of the answer. -/
theorem exists_pages_eq_ok {shown : List Json} (h : store.answer model query = .ok shown)
    (small : (store.rows query.resource).length < 2 ^ 64) {perPage : Nat} (hperPage : 1 ≤ perPage)
    (count : Nat) :
    ∃ pages, (List.range' 1 count).mapM (fun number => store.page model query ⟨number, perPage⟩) =
        .ok pages ∧
      pages.flatMap Page.items = shown.take (count * perPage) := by
  have hpage := page_eq_slice h small hperPage
  obtain ⟨pages, hpages⟩ := Outcome.exists_mapM_eq_ok (l := List.range' 1 count)
    fun number _ => ⟨_, hpage number⟩
  refine ⟨pages, hpages, ?_⟩
  have heq := Outcome.eq_map_of_mapM_eq_ok
    (fun {number found} hfound => (Except.ok.inj ((hpage number).symm.trans hfound)).symm) hpages
  rw [heq, List.flatMap_map, ← flatMap_slice]

/-- Every page of an answer is the part at its place, those up to the last put together are the
answer, those beyond it are empty, and the first row is the answer's first. -/
theorem pages_partition {shown : List Json} (answered : store.answer model query = .ok shown)
    (small : (store.rows query.resource).length < 2 ^ 64) {perPage : Nat}
    (hperPage : 1 ≤ perPage) :
    let page := fun number => store.page model query ⟨number, perPage⟩
    let last := max 1 (shown.length ⌈/⌉ perPage)
    (∀ number ≥ 1, page number =
      .ok ⟨(shown.drop ((number - 1) * perPage)).take perPage, shown.length, number, perPage,
        last⟩) ∧
    (∃ pages, (List.range' 1 last).mapM page = .ok pages ∧ pages.flatMap Page.items = shown) ∧
    (∀ number > last, ∃ beyond, page number = .ok beyond ∧ beyond.items = []) ∧
    store.first? model query = .ok shown.head? := by
  intro page last
  have hpage := page_eq_slice answered small hperPage
  have hwhole : shown.length ≤ last * perPage :=
    length_le_mul_of_ceilDiv_le shown perPage hperPage (Nat.le_max_right _ _)
  refine ⟨fun number _ => hpage number, ?_, ?_, ?_⟩
  · obtain ⟨pages, hpages, hitems⟩ := exists_pages_eq_ok answered small hperPage last
    rw [List.take_of_length_le hwhole] at hitems
    exact ⟨pages, hpages, hitems⟩
  · -- a page beyond the last begins past the end
    intro number hnumber
    refine ⟨_, hpage number, slice_eq_nil shown perPage ?_⟩
    have hmul : last * perPage ≤ (number - 1) * perPage := Nat.mul_le_mul_right _ (by omega)
    omega
  · obtain ⟨r, hresource, rows, hrows, hshown⟩ := answer_eq_ok.mp answered
    exact first?_of_mapM_eq_ok hresource hrows hshown

/-- Three of four posts in two pages. -/
theorem pages_partition_journal :
    let query : Query := {
      resource := "posts"
      columns := ["id"]
      order := [("id", .ascending)] }
    let store : Store := ⟨[("posts", [
      [("id", .int 1), ("title", .str "first")],
      [("id", .int 2), ("title", .str "second")],
      [("id", .int 3), ("title", .str "third"), ("deleted_at", .str "now")],
      [("id", .int 4), ("title", .str "fourth")]])]⟩
    let shown : List Json :=
      [.obj [("id", .int 1)], .obj [("id", .int 2)], .obj [("id", .int 4)]]
    store.answer Config.journal query = .ok shown ∧
      (store.rows query.resource).length < 2 ^ 64 ∧
      store.page Config.journal query ⟨2, 2⟩ = .ok ⟨[.obj [("id", .int 4)]], 3, 2, 2, 2⟩ := by
  intro query store shown
  let rows : List Row := [
    [("id", .int 1), ("title", .str "first")],
    [("id", .int 2), ("title", .str "second")],
    [("id", .int 4), ("title", .str "fourth")]]
  have hsorted : (rows.mergeSort fun a b => (Row.order query.order a b).isLE) = rows :=
    List.mergeSort_of_pairwise (by decide +kernel)
  have answered : store.answer Config.journal query = .ok shown :=
    answer_eq_ok.mpr ⟨Config.resolveResource Config.postsDef, rfl, rows,
      congrArg Except.ok hsorted, rfl⟩
  have small : (store.rows query.resource).length < 2 ^ 64 := by decide
  obtain ⟨hpage, _⟩ := pages_partition answered small (by decide : 1 ≤ 2)
  have hlast : shown.length ⌈/⌉ 2 = 2 := by
    simp [shown, Nat.ceilDiv_eq_add_pred_div]
  refine ⟨answered, small, (hpage 2 (by decide)).trans ?_⟩
  rw [hlast]
  rfl

end Store

end Records
