import Records.Params.Brackets
import Records.Proofs.Json.Fields
import Records.Proofs.Number.Numeral
import Records.Proofs.Outcome

/-!
# Objects in bracket notation

An object is written in bracket notation leaf by leaf.  Adding the leaves of a value one after
another to an object that does not have its field puts the field at the end (`Appends`): a list
grows item by item (`foldlM_insert_item`), and whatever is added below a field is added to the
object in it (`foldlM_under`).  So the object is read back, with the numerals of its integers in
their place (`ofPairs_encode`).
-/

set_option autoImplicit false

namespace Records

namespace Brackets

/-- A text with the place where it stands: a field, and the steps below it. -/
structure Leaf where
  head : String
  path : List String
  text : String

/-- A leaf below a field. -/
def Leaf.under (name : String) (leaf : Leaf) : Leaf := ⟨name, leaf.head :: leaf.path, leaf.text⟩

/-- Steps in brackets. -/
def brackets (path : List String) : List Char :=
  path.flatMap fun step => '[' :: (step.toList ++ [']'])

/-- The key of a leaf: its field, and each step in brackets. -/
def Leaf.key (leaf : Leaf) : String := String.ofList (leaf.head.toList ++ brackets leaf.path)

mutual

/-- The leaves of a value that a field holds, depth first; an integer is the text of its numeral. -/
def leaves (name : String) : Json → List Leaf
  | .str s => [⟨name, [], s⟩]
  | .int n => [⟨name, [], Numeral.decimal n⟩]
  | .arr items => (itemLeaves items).map (Leaf.under name)
  | .obj fields => (fieldLeaves fields).map (Leaf.under name)
  | _ => []

/-- The leaves of the items of a list, each at the empty step. -/
def itemLeaves : List Json → List Leaf
  | [] => []
  | item :: items => leaves "" item ++ itemLeaves items

/-- The leaves of an object, field by field. -/
def fieldLeaves : List (String × Json) → List Leaf
  | [] => []
  | (name, value) :: fields => leaves name value ++ fieldLeaves fields

end

/-- The pairs that spell an object. -/
def encode (fields : Fields) : List (String × String) :=
  (fieldLeaves fields).map fun leaf => (leaf.key, leaf.text)

end Brackets

namespace Json

mutual

/-- A value with each integer as the text of its numeral. -/
def spelled : Json → Json
  | .int n => .str (Numeral.decimal n)
  | .arr items => .arr (spelledItems items)
  | .obj fields => .obj (spelledFields fields)
  | value => value

def spelledItems : List Json → List Json
  | [] => []
  | item :: items => item.spelled :: spelledItems items

/-- The fields of an object with each integer as the text of its numeral. -/
def spelledFields : List (String × Json) → List (String × Json)
  | [] => []
  | (name, value) :: fields => (name, value.spelled) :: spelledFields fields

end

/-- Strings, lists of strings and objects, and integers where they are allowed; without empty lists
and objects, and with the names of fields that a bracket can hold. -/
inductive Spellable (integers : Bool) : Json → Prop
  | str (s : String) : Spellable integers (.str s)
  | int (allowed : integers = true) (n : Int) : Spellable integers (.int n)
  | arr {texts : List String} (filled : texts ≠ []) : Spellable integers (.arr (texts.map .str))
  | obj {fields : Fields} (filled : fields ≠ []) (distinct : (fields.map Prod.fst).Nodup)
      (named : ∀ field ∈ fields, field.1 ≠ "" ∧ ']' ∉ field.1.toList)
      (values : ∀ field ∈ fields, Spellable integers field.2) : Spellable integers (.obj fields)

end Json

/-- The parameters whose values may hold integers. -/
def ListParams.allowsIntegers (name : String) : Bool :=
  name = "page" || name = "limit" || name = "per_page" || name = "counts"

/-- An object that bracket notation spells: a key does not open a bracket, and no text is taken for
JSON. -/
structure Brackets.Spellable (fields : Fields) : Prop where
  distinct : (fields.map Prod.fst).Nodup
  unopened : ∀ field ∈ fields, '[' ∉ field.1.toList
  values : ∀ field ∈ fields, field.2.Spellable (ListParams.allowsIntegers field.1)
  plain : ∀ field ∈ fields, ∀ s, field.2 = .str s → mayBeJson field.1 = true →
    (Text.trim s).toList.head? ≠ some '{'

namespace Json

/-- The items of a list are spelled one by one. -/
theorem spelledItems_eq_map (items : List Json) : spelledItems items = items.map spelled := by
  induction items with
  | nil => rfl
  | cons item rest ih => rw [spelledItems, ih, List.map_cons]

/-- The fields of an object are spelled one by one. -/
theorem spelledFields_eq_map (fields : Fields) :
    spelledFields fields = fields.map fun field => (field.1, field.2.spelled) := by
  induction fields with
  | nil => rfl
  | cons field rest ih =>
    obtain ⟨name, value⟩ := field
    rw [spelledFields, ih, List.map_cons]

/-- A list of texts is spelled as it is. -/
theorem spelled_texts (texts : List String) :
    (Json.arr (texts.map .str)).spelled = .arr (texts.map .str) := by
  rw [spelled, spelledItems_eq_map, List.map_map]
  rfl

/-- Without integers a value is spelled as it is. -/
theorem Spellable.spelled_eq_self {value : Json} (h : value.Spellable false) :
    value.spelled = value := by
  induction h with
  | str s => rfl
  | int allowed n => cases allowed
  | arr filled => exact spelled_texts _
  | obj filled distinct named values ih =>
    rw [spelled, spelledFields_eq_map]
    congr 1
    refine (List.map_congr_left ?_).trans (List.map_id _)
    intro field hfield
    rw [ih field hfield]
    rfl

end Json

namespace Brackets

section Keys

/-- A character that does not close a bracket is part of the step. -/
theorem open?_cons {c : Char} (h : c ≠ ']') (seen rest : List Char) :
    bracketed?.open? seen (c :: rest) = bracketed?.open? (c :: seen) rest := by
  rw [bracketed?.open?] <;> simp [h]

/-- A step without a closing bracket is read to its end. -/
theorem open?_append {step : List Char} (h : ']' ∉ step) (seen rest : List Char) :
    bracketed?.open? seen (step ++ rest) = bracketed?.open? (step.reverse ++ seen) rest := by
  induction step generalizing seen with
  | nil => rfl
  | cons c step ih =>
    simp only [List.mem_cons, not_or] at h
    rw [List.cons_append, open?_cons (Ne.symm h.1), ih h.2, List.reverse_cons, List.append_assoc,
      List.singleton_append]

/-- Steps in brackets are read back. -/
theorem bracketed?_brackets {path : List String} (h : ∀ step ∈ path, ']' ∉ step.toList) :
    bracketed? (brackets path) = some (path.map String.toList) := by
  induction path with
  | nil => rfl
  | cons step rest ih =>
    obtain ⟨hstep, hrest⟩ := List.forall_mem_cons.mp h
    -- once a bracket is closed the text ends or the next one opens
    have hclose : ∀ seen, bracketed?.open? seen (']' :: brackets rest) =
        (bracketed? (brackets rest)).map (seen.reverse :: ·) := by
      intro seen
      cases rest <;> rfl
    show bracketed?.open? [] (step.toList ++ [']'] ++ brackets rest) = _
    rw [List.append_assoc, open?_append hstep, List.singleton_append, hclose, ih hrest]
    simp

/-- The field of a key ends at its first bracket. -/
theorem takeWhile_key {head : List Char} (h : '[' ∉ head) (path : List String) :
    (head ++ brackets path).takeWhile (· ≠ '[') = head := by
  have hrest : (brackets path).takeWhile (· ≠ '[') = [] := by
    cases path <;> rfl
  rw [List.takeWhile_append_of_pos, hrest, List.append_nil]
  intro c hc
  have hne : c ≠ '[' := fun heq => h (heq ▸ hc)
  simpa using hne

/-- The key of a leaf is read back as its field and its steps. -/
theorem split_key {leaf : Leaf} (hhead : '[' ∉ leaf.head.toList)
    (hpath : ∀ step ∈ leaf.path, ']' ∉ step.toList) :
    split leaf.key = .ok (leaf.head, leaf.path) := by
  simp only [split, Leaf.key, String.toList_ofList]
  rw [takeWhile_key hhead, List.drop_left, bracketed?_brackets hpath]
  simp

end Keys

/-- Adds a leaf. -/
def Leaf.insert (fields : Fields) (leaf : Leaf) : Except Fault Fields :=
  Brackets.insert fields leaf.head leaf.path (.str leaf.text)

section Insertion

variable {fields : Fields} {name : String}

/-- An item is added to the list that a field holds. -/
theorem insert_item (items : List Json) (value : Json) :
    insert (Fields.put fields name (.arr items)) name [""] value =
      .ok (Fields.put fields name (.arr (items ++ [value]))) := by
  simp [insert, Fields.get?_put, Fields.put_put]

/-- Items that are added to a list come behind its own in their order. -/
theorem foldlM_insert_item (items : List Json) (texts : List String) :
    texts.foldlM (fun fields text => insert fields name [""] (.str text))
        (Fields.put fields name (.arr items)) =
      .ok (Fields.put fields name (.arr (items ++ texts.map .str))) := by
  induction texts generalizing items with
  | nil => simp [pure, Except.pure]
  | cons text rest ih =>
    rw [List.foldlM_cons, Outcome.bind_of_ok (insert_item items (.str text)), ih, List.map_cons,
      List.append_assoc, List.singleton_append]

/-- What is added below a field is added to the object in it. -/
theorem insert_under {leaf : Leaf} (hhead : leaf.head ≠ "") (child : Fields) :
    (leaf.under name).insert (Fields.put fields name (.obj child)) =
      (leaf.insert child).map fun child => Fields.put fields name (.obj child) := by
  have hempty : leaf.head.isEmpty = false := by simpa using hhead
  simp [Leaf.insert, Leaf.under, insert, hempty, Fields.get?_put, Fields.put_put]

/-- Where a field is not there, adding below it begins as adding to an empty object. -/
theorem insert_under_of_absent {leaf : Leaf} (hhead : leaf.head ≠ "")
    (habsent : Fields.get? fields name = none) :
    (leaf.under name).insert fields =
      (leaf.under name).insert (Fields.put fields name (.obj [])) := by
  have hempty : leaf.head.isEmpty = false := by simpa using hhead
  rw [insert_under hhead]
  simp [Leaf.insert, Leaf.under, insert, hempty, habsent]

/-- Leaves that are added below a field are added to the object that it holds. -/
theorem foldlM_under {added : List Leaf} (hheads : ∀ leaf ∈ added, leaf.head ≠ "")
    (child : Fields) :
    (added.map (Leaf.under name)).foldlM Leaf.insert (Fields.put fields name (.obj child)) =
      (added.foldlM Leaf.insert child).map fun child => Fields.put fields name (.obj child) := by
  induction added generalizing child with
  | nil => rfl
  | cons leaf rest ih =>
    obtain ⟨hhead, hrest⟩ := List.forall_mem_cons.mp hheads
    rw [List.map_cons, List.foldlM_cons, List.foldlM_cons]
    rw [insert_under hhead, Outcome.map_bind]
    cases leaf.insert child with
    | error why => rfl
    | ok child => exact ih hrest child

/-- Leaves that are added below a field that is not there make its object. -/
theorem foldlM_under_of_absent {added : List Leaf} (hheads : ∀ leaf ∈ added, leaf.head ≠ "")
    (hfilled : added ≠ []) (habsent : Fields.get? fields name = none) :
    (added.map (Leaf.under name)).foldlM Leaf.insert fields =
      (added.foldlM Leaf.insert []).map fun child => Fields.put fields name (.obj child) := by
  rw [← foldlM_under hheads]
  cases added with
  | nil => exact absurd rfl hfilled
  | cons leaf rest =>
    -- once the first leaf is added the field is there
    have hhead := hheads leaf List.mem_cons_self
    rw [List.map_cons, List.foldlM_cons, List.foldlM_cons, insert_under_of_absent hhead habsent]

end Insertion

section Leaves

variable {integers : Bool} {value : Json}

/-- The leaves of a field stand at it. -/
theorem head_of_mem_leaves {name : String} {leaf : Leaf}
    (h : leaf ∈ leaves name value) : leaf.head = name := by
  cases value with
  | str s | int n =>
    rw [leaves, List.mem_singleton] at h
    rw [h]
  | arr items | obj fields =>
    rw [leaves] at h
    obtain ⟨_, _, rfl⟩ := List.mem_map.mp h
    rfl
  | null | bool b | double d => cases h

/-- The leaves of an object are those of its fields. -/
theorem mem_fieldLeaves {fields : Fields} {leaf : Leaf} :
    leaf ∈ fieldLeaves fields ↔ ∃ field ∈ fields, leaf ∈ leaves field.1 field.2 := by
  induction fields with
  | nil => simp [fieldLeaves]
  | cons field rest ih =>
    obtain ⟨name, value⟩ := field
    rw [fieldLeaves, List.mem_append, ih, List.exists_mem_cons_iff]

/-- A list of texts has a leaf for each text, all at the empty step. -/
theorem itemLeaves_texts (texts : List String) :
    itemLeaves (texts.map .str) = texts.map fun text => ⟨"", [], text⟩ := by
  induction texts with
  | nil => rfl
  | cons text rest ih =>
    rw [List.map_cons, itemLeaves, ih, leaves, List.map_cons, List.singleton_append]

/-- An object with fields has leaves when all of its values do. -/
theorem fieldLeaves_ne_nil {fields : Fields} (hfilled : fields ≠ [])
    (hvalues : ∀ field ∈ fields, ∀ name, leaves name field.2 ≠ []) : fieldLeaves fields ≠ [] := by
  obtain ⟨⟨name, value⟩, rest, rfl⟩ := List.exists_cons_of_ne_nil hfilled
  have hfirst := hvalues (name, value) List.mem_cons_self name
  simp [fieldLeaves, hfirst]

/-- A value that can be spelled has leaves. -/
theorem leaves_ne_nil (h : value.Spellable integers) (name : String) : leaves name value ≠ [] := by
  induction h generalizing name with
  | str s => simp [leaves]
  | int allowed n => simp [leaves]
  | arr filled =>
    rw [leaves, itemLeaves_texts]
    simpa using filled
  | obj filled distinct named values ih =>
    rw [leaves, ne_eq, List.map_eq_nil_iff]
    exact fieldLeaves_ne_nil filled ih

/-- Adding the leaves of a value where its field is not there puts the field at the end. -/
def Appends (value : Json) : Prop :=
  ∀ (fields : Fields) (name : String), Fields.get? fields name = none →
    (leaves name value).foldlM Leaf.insert fields = .ok (fields ++ [(name, value.spelled)])

/-- Adding the leaves of new fields puts these fields behind the old ones. -/
theorem foldlM_fieldLeaves {added fields : Fields} (happends : ∀ field ∈ added, Appends field.2)
    (hdistinct : (added.map Prod.fst).Nodup)
    (habsent : ∀ field ∈ added, Fields.get? fields field.1 = none) :
    (fieldLeaves added).foldlM Leaf.insert fields = .ok (fields ++ Json.spelledFields added) := by
  induction added generalizing fields with
  | nil =>
    rw [Json.spelledFields, List.append_nil]
    rfl
  | cons field rest ih =>
    obtain ⟨name, value⟩ := field
    obtain ⟨hfirst, hothers⟩ := List.forall_mem_cons.mp happends
    obtain ⟨hname, hrest⟩ := List.forall_mem_cons.mp habsent
    obtain ⟨hnew, hdistinct⟩ := List.nodup_cons.mp hdistinct
    have habsent : ∀ field ∈ rest,
        Fields.get? (fields ++ [(name, value.spelled)]) field.1 = none := by
      intro field hfield
      have hother := Fields.get?_eq_none_iff.mp (hrest field hfield)
      have hne : field.1 ≠ name := by
        rintro rfl
        exact hnew (List.mem_map.mpr ⟨field, hfield, rfl⟩)
      rw [Fields.get?_eq_none_iff, List.map_append, List.mem_append, not_or]
      exact ⟨hother, by simpa using hne⟩
    rw [fieldLeaves, List.foldlM_append, Outcome.bind_of_ok (hfirst fields name hname),
      ih hothers hdistinct habsent, Json.spelledFields, List.append_assoc, List.singleton_append]

/-- Adding the leaves of an object to nothing makes that object, its integers spelled. -/
theorem foldlM_fieldLeaves_nil {added : Fields} (happends : ∀ field ∈ added, Appends field.2)
    (hdistinct : (added.map Prod.fst).Nodup) :
    (fieldLeaves added).foldlM Leaf.insert [] = .ok (Json.spelledFields added) :=
  foldlM_fieldLeaves happends hdistinct fun _ _ => rfl

/-- A list of texts that is not empty is put at the end by its leaves. -/
theorem appends_arr {texts : List String} (hfilled : texts ≠ []) :
    Appends (.arr (texts.map .str)) := by
  intro fields name habsent
  obtain ⟨text, rest, rfl⟩ := List.exists_cons_of_ne_nil hfilled
  have hfirst : insert fields name [""] (.str text) =
      .ok (Fields.put fields name (.arr [.str text])) := by
    simp [insert, habsent]
  rw [Json.spelled_texts, leaves, itemLeaves_texts, List.map_map, List.foldlM_map,
    List.foldlM_cons]
  show (insert fields name [""] (.str text) >>= fun fields =>
    rest.foldlM (fun fields text => insert fields name [""] (.str text)) fields) = _
  rw [Outcome.bind_of_ok hfirst, foldlM_insert_item, Fields.put_of_get?_eq_none habsent]
  rfl

/-- Every value that can be spelled is put at the end by its leaves. -/
theorem appends_of_spellable (h : value.Spellable integers) : Appends value := by
  induction h with
  | str s | int allowed n =>
    intro fields name habsent
    exact congrArg Except.ok (Fields.put_of_get?_eq_none habsent _)
  | arr filled => exact appends_arr filled
  | @obj children filled distinct named values ih =>
    -- the leaves of the object are added below a field that the first of them makes
    intro fields name habsent
    have hheads : ∀ leaf ∈ fieldLeaves children, leaf.head ≠ "" := by
      intro leaf hleaf
      obtain ⟨child, hchild, hleaf⟩ := mem_fieldLeaves.mp hleaf
      rw [head_of_mem_leaves hleaf]
      exact (named child hchild).1
    have hleaves : fieldLeaves children ≠ [] :=
      fieldLeaves_ne_nil filled fun child hchild => leaves_ne_nil (values child hchild)
    rw [leaves, foldlM_under_of_absent hheads hleaves habsent,
      foldlM_fieldLeaves_nil ih distinct, Json.spelled]
    exact congrArg Except.ok (Fields.put_of_get?_eq_none habsent _)

end Leaves

section Encoding

/-- A leaf whose key is read back, and whose text is not taken for JSON. -/
structure Leaf.Plain (leaf : Leaf) : Prop where
  unopened : '[' ∉ leaf.head.toList
  unclosed : ∀ step ∈ leaf.path, ']' ∉ step.toList
  noJson : leaf.path = [] → mayBeJson leaf.head = true → looksLikeObject leaf.text = false

/-- Reading the pair of a plain leaf adds the leaf. -/
theorem addPair_of_plain {leaf : Leaf} (h : leaf.Plain) (fields : Fields) :
    addPair fields (leaf.key, leaf.text) = leaf.insert fields := by
  have hvalue : pairValue leaf.head leaf.path leaf.text = .ok (.str leaf.text) := by
    rw [pairValue, if_neg]
    rw [Bool.and_eq_true, Bool.and_eq_true, List.isEmpty_iff]
    rintro ⟨⟨hpath, hjson⟩, hobject⟩
    rw [h.noJson hpath hjson] at hobject
    cases hobject
  rw [addPair, Outcome.bind_of_ok (split_key h.unopened h.unclosed)]
  show (pairValue leaf.head leaf.path leaf.text >>= _) = _
  rw [Outcome.bind_of_ok hvalue]
  rfl

/-- Reading the pairs of plain leaves adds the leaves one after another. -/
theorem foldlM_addPair {added : List Leaf} (h : ∀ leaf ∈ added, leaf.Plain) (fields : Fields) :
    (added.map fun leaf => (leaf.key, leaf.text)).foldlM addPair fields =
      added.foldlM Leaf.insert fields := by
  induction added generalizing fields with
  | nil => rfl
  | cons leaf rest ih =>
    obtain ⟨hleaf, hrest⟩ := List.forall_mem_cons.mp h
    rw [List.map_cons, List.foldlM_cons, List.foldlM_cons, addPair_of_plain hleaf]
    cases leaf.insert fields with
    | error why => rfl
    | ok fields => exact ih hrest fields

/-- A text is taken for an object when its first character that is not blank opens one. -/
theorem looksLikeObject_eq (text : String) :
    looksLikeObject text = decide ((Text.trim text).toList.head? = some '{') := by
  rw [looksLikeObject, Text.trim, String.toList_ofList, Text.head?_trimChars]

/-- The text of an integer is not taken for an object. -/
theorem looksLikeObject_decimal (n : Int) : looksLikeObject (Numeral.decimal n) = false := by
  rw [looksLikeObject_eq, Numeral.trim_decimal, Numeral.decimal, String.toList_ofList,
    decide_eq_false_iff_not]
  intro hhead
  rcases Numeral.eq_or_isDigit_of_mem_ofInt (List.mem_of_head? hhead) with h | h <;> cases h

/-- A step is the name of a field or empty, so it does not close a bracket. -/
theorem unclosed_of_mem_leaves {integers : Bool} {value : Json} (h : value.Spellable integers)
    {name : String} {leaf : Leaf} (hleaf : leaf ∈ leaves name value) :
    ∀ step ∈ leaf.path, ']' ∉ step.toList := by
  induction h generalizing name leaf with
  | str s | int allowed n =>
    rw [leaves, List.mem_singleton] at hleaf
    rw [hleaf]
    simp
  | arr filled =>
    rw [leaves, itemLeaves_texts, List.map_map] at hleaf
    obtain ⟨text, _, rfl⟩ := List.mem_map.mp hleaf
    simp [Leaf.under]
  | obj filled distinct named values ih =>
    rw [leaves] at hleaf
    obtain ⟨inner, hinner, rfl⟩ := List.mem_map.mp hleaf
    obtain ⟨field, hfield, hinner⟩ := mem_fieldLeaves.mp hinner
    refine List.forall_mem_cons.mpr ⟨?_, ih field hfield hinner⟩
    rw [head_of_mem_leaves hinner]
    exact (named field hfield).2

/-- A leaf that stands at its field itself is the whole value. -/
theorem eq_of_mem_leaves {name : String} {value : Json} {leaf : Leaf}
    (hleaf : leaf ∈ leaves name value) (hpath : leaf.path = []) :
    value = .str leaf.text ∨ ∃ n, leaf.text = Numeral.decimal n := by
  cases value with
  | str s =>
    cases List.mem_singleton.mp hleaf
    exact .inl rfl
  | int n =>
    cases List.mem_singleton.mp hleaf
    exact .inr ⟨n, rfl⟩
  | arr items | obj fields =>
    rw [leaves] at hleaf
    obtain ⟨_, _, rfl⟩ := List.mem_map.mp hleaf
    cases hpath
  | null | bool b | double d => cases hleaf

/-- The leaves of an object that can be spelled are plain. -/
theorem plain_of_mem_fieldLeaves {fields : Fields} (h : Spellable fields) {leaf : Leaf}
    (hleaf : leaf ∈ fieldLeaves fields) : leaf.Plain := by
  obtain ⟨field, hfield, hleaf⟩ := mem_fieldLeaves.mp hleaf
  have hhead := head_of_mem_leaves hleaf
  constructor
  · rw [hhead]
    exact h.unopened field hfield
  · exact unclosed_of_mem_leaves (h.values field hfield) hleaf
  · intro hpath hjson
    rw [hhead] at hjson
    rcases eq_of_mem_leaves hleaf hpath with hvalue | ⟨n, htext⟩
    · rw [looksLikeObject_eq, decide_eq_false_iff_not]
      exact h.plain field hfield leaf.text hvalue hjson
    · rw [htext]
      exact looksLikeObject_decimal n

/-- The pairs that spell an object are read as that object, its integers as numerals. -/
theorem ofPairs_encode {fields : Fields} (h : Spellable fields) :
    ofPairs (encode fields) = .ok (.obj (Json.spelledFields fields)) := by
  have happends : ∀ field ∈ fields, Appends field.2 := by
    intro field hfield
    exact appends_of_spellable (h.values field hfield)
  rw [ofPairs, encode, foldlM_addPair fun _ => plain_of_mem_fieldLeaves h,
    foldlM_fieldLeaves_nil happends h.distinct]
  rfl

end Encoding

end Brackets

end Records
