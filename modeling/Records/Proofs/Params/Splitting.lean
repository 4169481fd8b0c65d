import Records.Proofs.Params.Notation
import Mathlib.Data.List.TakeWhile

/-!
# Keys taken apart

A key is what stands before its first bracket, followed by the steps below it, each in brackets.
Splitting a key and putting its parts together undo each other: the parts that are split off make up
the whole key, and a key made of parts that hold no stray bracket is split into these parts and no
others.  Every other key is rejected (`split_iff_joined`).
-/

set_option autoImplicit false

namespace Records.Brackets

/-- A key without stray brackets. -/
structure Leaf.Written (leaf : Leaf) : Prop where
  unopened : '[' ∉ leaf.head.toList
  unclosed : ∀ step ∈ leaf.path, ']' ∉ step.toList

/-- What was read from inside a bracket: the rest of its step, and further steps in brackets. -/
theorem eq_append_of_open? {seen text : List Char} {steps : List (List Char)}
    (h : bracketed?.open? seen text = some steps) :
    ∃ (first : List Char) (others : List String),
      steps = (seen.reverse ++ first) :: others.map String.toList ∧
        text = first ++ ']' :: brackets others ∧ ']' ∉ first ∧
        ∀ step ∈ others, ']' ∉ step.toList := by
  fun_induction bracketed?.open? seen text generalizing steps with
  | case1 => cases h
  | case2 seen =>
    cases h
    exact ⟨[], [], by simp [brackets]⟩
  | case3 seen rest ih =>
    obtain ⟨others, hothers, rfl⟩ := Option.map_eq_some_iff.mp h
    obtain ⟨first, more, rfl, rfl, hfirst, hmore⟩ := ih hothers
    refine ⟨[], String.ofList first :: more, by simp, by simp [brackets], by simp, ?_⟩
    exact List.forall_mem_cons.mpr ⟨by simpa using hfirst, hmore⟩
  | case4 => cases h
  | case5 seen c rest hempty hopen hclose ih =>
    obtain ⟨first, others, rfl, rfl, hfirst, hothers⟩ := ih h
    exact ⟨c :: first, others, by simp, rfl,
      List.not_mem_cons_of_ne_of_not_mem (Ne.symm hclose) hfirst, hothers⟩

/-- What was read as steps is these steps in brackets. -/
theorem eq_brackets_of_bracketed? {text : List Char} {steps : List (List Char)}
    (h : bracketed? text = some steps) :
    ∃ path : List String, steps = path.map String.toList ∧ text = brackets path ∧
      ∀ step ∈ path, ']' ∉ step.toList := by
  rw [bracketed?.eq_def] at h
  split at h
  · cases h
    exact ⟨[], rfl, rfl, by simp⟩
  · obtain ⟨first, others, rfl, rfl, hfirst, hothers⟩ := eq_append_of_open? h
    refine ⟨String.ofList first :: others, by simp, by simp [brackets], ?_⟩
    exact List.forall_mem_cons.mpr ⟨by simpa using hfirst, hothers⟩
  · cases h

/-- A key that is read is the key of the leaf that is read from it. -/
theorem written_of_split {key : String} {head : String} {path : List String}
    (h : split key = .ok (head, path)) (text : String) :
    (Leaf.mk head path text).Written ∧ (Leaf.mk head path text).key = key := by
  simp only [split] at h
  split at h
  · rename_i steps hsteps
    cases h
    obtain ⟨path, rfl, hrest, hpath⟩ := eq_brackets_of_bracketed? hsteps
    have hsteps : (path.map String.toList).map String.ofList = path := by simp
    have hopen : '[' ∉ key.toList.takeWhile (· ≠ '[') := by
      intro hmem
      simpa using List.all_eq_true.mp List.all_takeWhile _ hmem
    have hkey : key.toList.takeWhile (· ≠ '[') ++ brackets path = key.toList := by
      rw [← hrest]
      exact List.prefix_iff_eq_append.mp (List.takeWhile_prefix _)
    rw [hsteps]
    constructor
    · exact ⟨by simpa using hopen, hpath⟩
    · rw [Leaf.key, String.toList_ofList, hkey, String.ofList_toList]
  · cases h

/-- A key put together from the text before its first bracket and the steps below it. -/
def joined (head : String) (path : List String) : String :=
  head ++ String.join (path.map fun step => "[" ++ step ++ "]")

/-- The key of a leaf is its field and steps joined. -/
theorem key_eq_joined (leaf : Leaf) : leaf.key = joined leaf.head leaf.path := by
  have hsteps : (String.join (leaf.path.map fun step => "[" ++ step ++ "]")).toList =
      brackets leaf.path := by
    simp [String.toList_join, brackets, List.flatMap_map]
  rw [Leaf.key, joined, ← String.toList_inj, String.toList_ofList, String.toList_append, hsteps]

/-- A key is split, or it is rejected as malformed. -/
theorem exists_split_eq_ok_or_error (key : String) :
    (∃ head path, split key = .ok (head, path)) ∨
      split key = .error (.invalid (.malformedParameterKey key)) := by
  simp only [split]
  split
  · exact .inl ⟨_, _, rfl⟩
  · exact .inr rfl

/-- A key is split into a head and steps exactly when it is these put together, the head opens no
bracket and no step closes one; a step may be empty or open brackets.  A key that has no such parts
is rejected. -/
theorem split_iff_joined (key : String) :
    (∀ head path, split key = .ok (head, path) ↔
      key = joined head path ∧ '[' ∉ head.toList ∧ ∀ step ∈ path, ']' ∉ step.toList) ∧
    (split key = .error (.invalid (.malformedParameterKey key)) ↔
      ∀ head path, key = joined head path →
        '[' ∈ head.toList ∨ ∃ step ∈ path, ']' ∈ step.toList) := by
  have hparts : ∀ head path, split key = .ok (head, path) ↔
      key = joined head path ∧ '[' ∉ head.toList ∧ ∀ step ∈ path, ']' ∉ step.toList := by
    intro head path
    constructor
    · intro h
      obtain ⟨⟨hhead, hpath⟩, hkey⟩ := written_of_split h ""
      exact ⟨hkey.symm.trans (key_eq_joined _), hhead, hpath⟩
    · rintro ⟨rfl, hhead, hpath⟩
      rw [← key_eq_joined ⟨head, path, ""⟩]
      exact split_key hhead hpath
  refine ⟨hparts, ?_⟩
  constructor
  · intro hrejected head path hkey
    -- a way to join without stray brackets would have been read
    by_contra hstray
    have haccepted := (hparts head path).mpr ⟨hkey, by simpa using hstray⟩
    rw [hrejected] at haccepted
    cases haccepted
  · intro hstray
    rcases exists_split_eq_ok_or_error key with ⟨head, path, h⟩ | h
    · obtain ⟨hkey, hhead, hpath⟩ := (hparts head path).mp h
      rcases hstray head path hkey with hopen | ⟨step, hstep, hclose⟩
      · exact absurd hopen hhead
      · exact absurd hclose (hpath step hstep)
    · exact h

/-- Steps that are empty or open brackets, and text after a bracket that is closed. -/
example : split "filters[a[b][]" = .ok ("filters", ["a[b", ""]) ∧
    split "filters[a]b" = .error (.invalid (.malformedParameterKey "filters[a]b")) :=
  ⟨rfl, rfl⟩

end Records.Brackets
