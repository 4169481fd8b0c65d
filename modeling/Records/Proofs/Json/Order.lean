import Records.Proofs.Json.Fields
import Records.Proofs.Number.Shortest
import Records.Store.Compare

/-!
# The order of stored values

Values are ordered by value within a kind and by text across kinds.  The text of a value tells its
kind by its first character, so the kinds follow one another: strings, numbers, arrays, booleans,
objects, and at last what is missing.  Hence the order of two values is that of their places
(`orderOptional_eq_order`), and a total preorder.
-/

set_option autoImplicit false

namespace Records.Json

/-- Where a value stands in the order of values. -/
structure Place where
  kind : Nat
  number : Int
  text : String

/-- The order of places: by kind, then by number, then by text. -/
def Place.order : Place → Place → Ordering :=
  compareLex (compareOn kind) (compareLex (compareOn number) (compareOn text))

instance : Std.TransCmp Place.order := inferInstanceAs (Std.TransCmp (compareLex _ _))

namespace Place

variable {p q : Place}

/-- Of two places the one with the lower kind comes first. -/
theorem order_of_kind_lt (h : p.kind < q.kind) : p.order q = .lt := by
  rw [order, compareLex, compareOn, Nat.compare_eq_lt.mpr h]
  rfl

/-- Of two places the one with the higher kind comes last. -/
theorem order_of_kind_gt (h : q.kind < p.kind) : p.order q = .gt :=
  Std.OrientedCmp.gt_of_lt (order_of_kind_lt h)

/-- Places of one kind are in the order of their numbers and then of their texts. -/
theorem order_mk (k : Nat) (m n : Int) (s t : String) :
    order ⟨k, m, s⟩ ⟨k, n, t⟩ = (compare m n).then (compare s t) := by
  simp [order, compareLex, compareOn]

end Place

/-- The place of a value; null comes last. -/
def place : Json → Place
  | .str s => ⟨0, 0, s⟩
  | .int n => ⟨1, (Double.ofInt n).key, ""⟩
  | .double d => ⟨1, d.key, ""⟩
  | .arr items => ⟨2, 0, (Json.arr items).compact⟩
  | .bool b => ⟨3, if b then 1 else 0, ""⟩
  | .obj fields => ⟨4, 0, (Json.obj fields).compact⟩
  | .null => ⟨5, 0, ""⟩

/-- The first character of the text of a value tells its kind. -/
theorem exists_print_eq_cons {a : Json} (h : a.isNull = false) :
    ∃ c rest, print a = c :: rest ∧
      (a.place.kind = 0 ∧ c.toNat = 34 ∨
        a.place.kind = 1 ∧ 45 ≤ c.toNat ∧ c.toNat ≤ 57 ∨
        a.place.kind = 2 ∧ c.toNat = 91 ∨
        a.place.kind = 3 ∧ 102 ≤ c.toNat ∧ c.toNat ≤ 116 ∨
        a.place.kind = 4 ∧ c.toNat = 123) := by
  have hnumber : ∀ c : Char, c = '-' ∨ c.isDigit = true → 45 ≤ c.toNat ∧ c.toNat ≤ 57 := by
    rintro c (rfl | hc)
    · decide
    · have hcode := Numeral.code_of_isDigit hc
      omega
  cases a with
  | null => cases h
  | str s => exact ⟨'"', _, rfl, .inl ⟨rfl, rfl⟩⟩
  | int n =>
    obtain ⟨c, rest, htext, hc⟩ := Numeral.exists_ofInt_eq_cons n
    exact ⟨c, rest, htext, .inr (.inl ⟨rfl, hnumber c hc⟩)⟩
  | double d =>
    obtain ⟨c, rest, htext, hc⟩ := d.exists_text_eq_cons
    exact ⟨c, rest, htext, .inr (.inl ⟨rfl, hnumber c hc⟩)⟩
  | arr items => cases items <;> exact ⟨'[', _, rfl, .inr (.inr (.inl ⟨rfl, rfl⟩))⟩
  | bool b =>
    cases b with
    | false => exact ⟨'f', _, rfl, .inr (.inr (.inr (.inl ⟨rfl, by decide⟩)))⟩
    | true => exact ⟨'t', _, rfl, .inr (.inr (.inr (.inl ⟨rfl, by decide⟩)))⟩
  | obj fields => cases fields <;> exact ⟨'\x7b', _, rfl, .inr (.inr (.inr (.inr ⟨rfl, rfl⟩)))⟩

/-- Texts are told apart by their first characters. -/
theorem compare_ofList_of_head_lt {c d : Char} (h : c.toNat < d.toNat) (rest others : List Char) :
    compare (String.ofList (c :: rest)) (String.ofList (d :: others)) = .lt := by
  have hlt : String.ofList (c :: rest) < String.ofList (d :: others) := by
    rw [String.lt_iff, String.toList_ofList, String.toList_ofList]
    exact List.Lex.rel h
  show compareOfLessAndEq _ _ = _
  rw [compareOfLessAndEq, if_pos hlt]

/-- The place of a value that is a number is the place of that number. -/
theorem place_of_double? {a : Json} {d : Double} (h : a.double? = some d) :
    a.place = ⟨1, d.key, ""⟩ := by
  cases a with
  | int n =>
    cases h
    rfl
  | double x =>
    cases h
    rfl
  | _ => cases h

section

variable {a b : Json}

/-- Values of different kinds are ordered by their texts. -/
theorem order_eq_compare_compact (h : a.place.kind ≠ b.place.kind) :
    a.order b = compare a.compact b.compact := by
  unfold order
  split
  · exact absurd rfl h
  · exact absurd rfl h
  · split
    · rename_i x y hx hy
      rw [place_of_double? hx, place_of_double? hy] at h
      exact absurd rfl h
    · rfl

variable (ha : a.isNull = false)

include ha

/-- Values of one kind are ordered by their numbers, or by their texts. -/
theorem order_of_kind_eq (h : a.place.kind = b.place.kind) :
    a.order b = a.place.order b.place := by
  unfold order
  split
  · simp [place, Place.order_mk]
  · rename_i x y
    cases x <;> cases y <;> rfl
  · rename_i hstrings hbools
    split
    · rename_i x y hx hy
      rw [place_of_double? hx, place_of_double? hy, Place.order_mk, Std.ReflOrd.compare_self,
        Ordering.then_eq]
      rfl
    · -- two values of one kind that are no strings, booleans or numbers
      rename_i hnumbers
      cases a <;> cases b <;> cases h
      case null.null.refl => cases ha
      case str.str.refl => exact (hstrings _ _ rfl rfl).elim
      case bool.bool.refl => exact (hbools _ _ rfl rfl).elim
      case arr.arr.refl => simp [place, Place.order_mk]
      case obj.obj.refl => simp [place, Place.order_mk]
      all_goals exact (hnumbers _ _ rfl rfl).elim

variable (hb : b.isNull = false)

include hb

/-- Texts of values of different kinds are ordered as the kinds are. -/
theorem compare_compact_of_kind_lt (h : a.place.kind < b.place.kind) :
    compare a.compact b.compact = .lt := by
  obtain ⟨c, rest, hc, hfirst⟩ := exists_print_eq_cons ha
  obtain ⟨d, others, hd, hsecond⟩ := exists_print_eq_cons hb
  rw [compact, compact, hc, hd]
  apply compare_ofList_of_head_lt
  omega

/-- Two values other than null of different kinds have different texts. -/
theorem compact_ne_of_kind_ne (h : a.place.kind ≠ b.place.kind) : a.compact ≠ b.compact := by
  intro heq
  rcases Nat.lt_or_gt_of_ne h with h | h
  · have hlt := compare_compact_of_kind_lt ha hb h
    rw [heq, Std.ReflOrd.compare_self] at hlt
    cases hlt
  · have hlt := compare_compact_of_kind_lt hb ha h
    rw [heq, Std.ReflOrd.compare_self] at hlt
    cases hlt

/-- Values are in the order of their places. -/
theorem order_eq_order : a.order b = a.place.order b.place := by
  rcases Nat.lt_trichotomy a.place.kind b.place.kind with h | h | h
  · rw [order_eq_compare_compact (Nat.ne_of_lt h), compare_compact_of_kind_lt ha hb h,
      Place.order_of_kind_lt h]
  · exact order_of_kind_eq ha h
  · rw [order_eq_compare_compact (Nat.ne_of_gt h), Place.order_of_kind_gt h]
    exact Std.OrientedCmp.gt_of_lt (compare_compact_of_kind_lt hb ha h)

end

/-- The place of a value that may be missing; what is missing comes last. -/
def placeOptional (a : Option Json) : Place := ((present? a).getD .null).place

/-- What is missing comes after every value. -/
theorem kind_lt {a : Json} (h : a.isNull = false) : a.place.kind < Json.null.place.kind := by
  obtain ⟨_, _, _, hkind⟩ := exists_print_eq_cons h
  show a.place.kind < 5
  omega

/-- Two values, missing or not, are ordered as their places are. -/
theorem orderOptional_eq_order (a b : Option Json) :
    orderOptional a b = (placeOptional a).order (placeOptional b) := by
  rw [orderOptional, placeOptional, placeOptional]
  cases ha : present? a with
  | none =>
    cases hb : present? b with
    | none => exact Std.ReflCmp.compare_self.symm
    | some y => exact (Place.order_of_kind_gt (kind_lt (present?_eq_some_iff.mp hb).2)).symm
  | some x =>
    have hx := (present?_eq_some_iff.mp ha).2
    cases hb : present? b with
    | none => exact (Place.order_of_kind_lt (kind_lt hx)).symm
    | some y => exact order_eq_order hx (present?_eq_some_iff.mp hb).2

/-- The order of values is a total preorder. -/
instance : Std.TransCmp orderOptional where
  eq_swap := by
    intro a b
    rw [orderOptional_eq_order, orderOptional_eq_order]
    exact Std.OrientedCmp.eq_swap
  isLE_trans := by
    intro a b c hab hbc
    rw [orderOptional_eq_order] at hab hbc ⊢
    exact Std.TransCmp.isLE_trans hab hbc

end Records.Json
