import Records.Proofs.Json.Order
import Records.Proofs.Store.Pages

/-!
# The order of rows

The order of values is a total preorder, across kinds and with missing values among them.  Hence so
is the order of rows by any columns in any directions, one column after another.  Sorting under a
total preorder only moves rows, puts them in order and keeps those that tie as they are, so this
holds of the rows that answer a query (`matching_sorted`).
-/

set_option autoImplicit false

namespace Records

/-- A comparison by which any two things are in order, or tie. -/
structure TotalPreorder {α : Type} (cmp : α → α → Ordering) : Prop where
  refl : ∀ a, cmp a a = .eq
  swap : ∀ a b, cmp a b = (cmp b a).swap
  trans : ∀ a b c, cmp a b ≠ .gt → cmp b c ≠ .gt → cmp a c ≠ .gt
  eq_trans : ∀ a b c, cmp a b = .eq → cmp b c = .eq → cmp a c = .eq

/-- A lawful comparison is a total preorder. -/
theorem TotalPreorder.of_transCmp {α : Type} (cmp : α → α → Ordering) [Std.TransCmp cmp] :
    TotalPreorder cmp where
  refl _ := Std.ReflCmp.compare_self
  swap _ _ := Std.OrientedCmp.eq_swap
  trans _ _ _ hab hbc :=
    Ordering.ne_gt_iff_isLE.mpr <|
      Std.TransCmp.isLE_trans (Ordering.ne_gt_iff_isLE.mp hab) (Ordering.ne_gt_iff_isLE.mp hbc)
  eq_trans _ _ _ := Std.TransCmp.eq_trans

/-! ### Sorting -/

section

variable {α : Type} {cmp : α → α → Ordering} [Std.TransCmp cmp]

/-- Of two values one is at most the other. -/
theorem isLE_or_isLE (a b : α) : ((cmp a b).isLE || (cmp b a).isLE) = true := by
  rw [(Std.OrientedCmp.eq_swap : cmp a b = (cmp b a).swap)]
  cases cmp b a <;> rfl

/-- A sorted list is in order throughout. -/
theorem pairwise_mergeSort (l : List α) :
    (l.mergeSort fun a b => (cmp a b).isLE).Pairwise fun a b => (cmp a b).isLE = true :=
  List.pairwise_mergeSort (fun _ _ _ => Std.TransCmp.isLE_trans) isLE_or_isLE l

/-- Members that tie with one another stay as they are. -/
theorem filter_mergeSort (l : List α) (a : α) :
    (l.mergeSort fun a b => (cmp a b).isLE).filter (fun b => cmp a b == .eq) =
      l.filter fun b => cmp a b == .eq := by
  let sorted := l.mergeSort fun a b => (cmp a b).isLE
  let tied := l.filter fun b => cmp a b == .eq
  have hties : tied.Pairwise fun b c => (cmp b c).isLE = true := by
    apply List.pairwise_of_forall_mem_list
    intro b hb c hc
    have hab : cmp a b = .eq := by simpa using (List.mem_filter.mp hb).2
    have hac : cmp a c = .eq := by simpa using (List.mem_filter.mp hc).2
    rw [Std.TransCmp.eq_trans (Std.OrientedCmp.eq_symm hab) hac]
    rfl
  have hkept : tied.Sublist sorted :=
    List.sublist_mergeSort (fun _ _ _ => Std.TransCmp.isLE_trans) isLE_or_isLE hties
      List.filter_sublist
  have htied : tied.filter (fun b => cmp a b == .eq) = tied := by
    rw [List.filter_filter]
    simp [tied]
  have hlength : tied.length = (sorted.filter fun b => cmp a b == .eq).length :=
    ((List.mergeSort_perm l _).symm.filter _).length_eq
  have hsub := hkept.filter fun b => cmp a b == .eq
  rw [htied] at hsub
  exact (hsub.eq_of_length hlength).symm

end

/-! ### Rows -/

namespace Row

instance (column : String) : Std.TransCmp (orderBy column .ascending) where
  eq_swap := by
    intro a b
    exact (Std.OrientedCmp.eq_swap : Json.orderOptional _ _ = _)
  isLE_trans := by
    intro a b c hab hbc
    exact (Std.TransCmp.isLE_trans hab hbc : (Json.orderOptional _ _).isLE = true)

/-- Descending order is ascending order the other way round. -/
theorem orderBy_descending (column : String) :
    orderBy column .descending = fun a b => orderBy column .ascending b a := by
  funext a b
  exact (Std.OrientedCmp.eq_swap : Json.orderOptional _ _ = _).symm

instance (column : String) (direction : SortDirection) :
    Std.TransCmp (orderBy column direction) := by
  cases direction with
  | ascending => infer_instance
  | descending =>
    rw [orderBy_descending]
    infer_instance

/-- Rows are ordered by the first key and, where it ties, by the others. -/
theorem order_cons (column : String) (direction : SortDirection)
    (rest : List (String × SortDirection)) :
    order ((column, direction) :: rest) = compareLex (orderBy column direction) (order rest) :=
  rfl

instance (keys : List (String × SortDirection)) : Std.TransCmp (order keys) := by
  induction keys with
  | nil => exact { eq_swap := rfl, isLE_trans := fun _ _ => rfl }
  | cons key rest ih =>
    rw [order_cons]
    infer_instance

end Row

namespace Store

/-- The order of values and that of rows by any columns are total preorders.  The matches of a
query, where they are found, are answered in its order: they are only moved, and those that tie on
all its columns stand as they are stored. -/
theorem matching_sorted :
    TotalPreorder Json.orderOptional ∧ (∀ keys, TotalPreorder (Row.order keys)) ∧
    ∀ (model : Model) (store : Store) (r : Resource) (query : Query) (matched : List Row),
      passing (store.isMatch model r query) (store.rows r.name) = .ok matched →
      matched.Sublist (store.rows r.name) ∧
      ∃ sorted, store.matching model r query = .ok sorted ∧
        sorted.Perm matched ∧
        sorted.Pairwise (fun a b => Row.order query.order a b ≠ .gt) ∧
        ∀ row, sorted.filter (fun other => Row.order query.order row other == .eq) =
          matched.filter fun other => Row.order query.order row other == .eq := by
  refine ⟨.of_transCmp _, fun keys => .of_transCmp _, ?_⟩
  intro model store r query matched hmatched
  refine ⟨?_, matched.mergeSort fun a b => (Row.order query.order a b).isLE, ?_, ?_, ?_, ?_⟩
  · rw [(passing_eq_ok.mp hmatched).2]
    exact List.filter_sublist
  · rw [matching, hmatched]
    rfl
  · exact List.mergeSort_perm _ _
  · exact (pairwise_mergeSort matched).imp fun h => Ordering.ne_gt_iff_isLE.mpr h
  · -- sorting is stable: rows that tie keep their order
    exact filter_mergeSort matched

/-- Posts sorted by their slugs: two of one slug keep their order. -/
theorem matching_sorted_journal :
    let posts := Config.resolveResource Config.postsDef
    let post (n : Int) (slug : Json) : Row := [("id", .int n), ("slug", slug)]
    let rows := [post 1 .null, post 2 (.str "b"), post 3 (.int 7), post 4 (.str "b")]
    let store : Store := ⟨[("posts", rows)]⟩
    let query : Query := { resource := "posts", order := [("slug", .descending)] }
    passing (store.isMatch Config.journal posts query) (store.rows "posts") = .ok rows ∧
      ∃ sorted, store.matching Config.journal posts query = .ok sorted ∧ sorted.Perm rows ∧
        sorted.filter (fun other => Row.order query.order (post 2 (.str "b")) other == .eq) =
          [post 2 (.str "b"), post 4 (.str "b")] := by
  intro posts post rows store query
  have hmatched : passing (store.isMatch Config.journal posts query) (store.rows posts.name) =
      .ok rows := rfl
  obtain ⟨_, sorted, hsorted, hperm, _, hties⟩ :=
    matching_sorted.2.2 Config.journal store posts query rows hmatched
  let tied (other : Row) : Bool := Row.order query.order (post 2 (.str "b")) other == .eq
  have hflags : tied (post 1 .null) = false ∧ tied (post 2 (.str "b")) = true ∧
      tied (post 3 (.int 7)) = false ∧ tied (post 4 (.str "b")) = true := by
    decide +kernel
  refine ⟨hmatched, sorted, hsorted, hperm, ?_⟩
  rw [hties]
  show rows.filter tied = _
  simp [rows, hflags]

end Store

end Records
