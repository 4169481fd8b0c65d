import Records.Proofs.Params.Splitting

/-!
# Pairs that stay in the bag

Adding a pair reaches one place of the bag, through the fields that its key names.  What an addition
does to a text or a list elsewhere is one of three things (`insert_cases`): it leaves it alone, it
grows the list there, or it puts a text over it.  So a text stays in the bag until a later key that
is no item of a list names its place or a field above it, and of two pairs that no bag can hold
together the second is rejected unless it is such a key (`isIn_iff_not_overwritten`).  There the
order decides: the pair that is lost is rejected when it comes second (`lost_under_shorter_key`).
-/

set_option autoImplicit false

namespace Records

/-- The value that steps lead to, from field to field. -/
def Json.at? (value : Json) : List String → Option Json
  | [] => some value
  | name :: rest =>
    match value with
    | .obj fields =>
      match Fields.get? fields name with
      | some child => child.at? rest
      | none => none
    | _ => none

namespace Brackets

namespace Leaf

/-- The pair that spells a leaf. -/
def pair (leaf : Leaf) : String × String := (leaf.key, leaf.text)

/-- Whether the text is read as JSON. -/
def isJson (leaf : Leaf) : Bool :=
  leaf.path.isEmpty && mayBeJson leaf.head && looksLikeObject leaf.text

/-- Whether the text is an item of a list: the key has an empty step, which is its last in every key
that is accepted. -/
def isItem (leaf : Leaf) : Bool := leaf.path.any String.isEmpty

/-- The fields that the key names, down to the text or to the list of which it is an item. -/
def place (leaf : Leaf) : List String := leaf.head :: leaf.path.takeWhile fun step => !step.isEmpty

/-- The text can be read back from a bag at the place of its key. -/
def IsIn (leaf : Leaf) (bag : Json) : Prop :=
  if leaf.isItem then ∃ items, bag.at? leaf.place = some (.arr items) ∧ .str leaf.text ∈ items
  else bag.at? leaf.place = some (.str leaf.text)

/-- A leaf is put over another: it is no item, and it is put at the place of the other or at a field
above it. -/
def Overwrites (later earlier : Leaf) : Prop :=
  later.isItem = false ∧ later.place <+: earlier.place

/-- Two leaves that no bag can hold together: the place of one is above that of the other, or one
is an item of a list and the other a text in the same place. -/
def Clashes (a b : Leaf) : Prop :=
  (a.place <+: b.place ∨ b.place <+: a.place) ∧ (a.place = b.place → a.isItem ≠ b.isItem)

end Leaf

/-! ## What is at a place -/

/-- Steps into an object lead through its field of the first name. -/
theorem at?_obj_cons (fields : Fields) (name : String) (rest : List String) :
    (Json.obj fields).at? (name :: rest) =
      (Fields.get? fields name).bind fun child => child.at? rest := by
  rw [Json.at?]
  cases Fields.get? fields name <;> rfl

/-- A field that was put changes only what its own name leads to. -/
theorem at?_put (fields : Fields) (name : String) (value : Json) (other : String)
    (rest : List String) :
    (Json.obj (Fields.put fields name value)).at? (other :: rest) =
      if name = other then value.at? rest else (Json.obj fields).at? (other :: rest) := by
  rw [at?_obj_cons, at?_obj_cons, Fields.get?_put]
  split <;> rfl

/-- A field that was put is where its name leads. -/
theorem at?_put_self (fields : Fields) (name : String) (value : Json) (rest : List String) :
    (Json.obj (Fields.put fields name value)).at? (name :: rest) = value.at? rest := by
  rw [at?_put, if_pos rfl]

/-- Steps one after another lead where the first ones do, and on from there. -/
theorem at?_append (value : Json) (first last : List String) :
    value.at? (first ++ last) = (value.at? first).bind fun child => child.at? last := by
  induction first generalizing value with
  | nil => rfl
  | cons name rest ih =>
    cases value with
    | obj fields =>
      rw [List.cons_append, at?_obj_cons, at?_obj_cons, Option.bind_assoc]
      exact congrArg _ (funext ih)
    | _ => rfl

/-! ## What an addition does -/

section

variable {fields after : Fields} {name : String} {value : Json}

/-- An item can only be added to a list or where nothing is, and it comes last in it. -/
theorem insert_item_eq_ok {rest : List String}
    (h : insert fields name ("" :: rest) value = .ok after) :
    rest = [] ∧ ∃ items, (Fields.get? fields name = none ∧ items = [] ∨
        Fields.get? fields name = some (.arr items)) ∧
      after = Fields.put fields name (.arr (items ++ [value])) := by
  rw [insert, if_pos (by rfl)] at h
  split at h
  · rename_i hrest
    refine ⟨List.isEmpty_iff.mp hrest, ?_⟩
    split at h
    · rename_i hnone
      cases h
      exact ⟨[], .inl ⟨hnone, rfl⟩, rfl⟩
    · rename_i items hitems
      cases h
      exact ⟨items, .inr hitems, rfl⟩
    · cases h
  · cases h

/-- What stands deeper can only be added to an object or where nothing is. -/
theorem insert_step_eq_ok {step : String} (hstep : step.isEmpty = false) {rest : List String}
    (h : insert fields name (step :: rest) value = .ok after) :
    ∃ child grown, (Fields.get? fields name = none ∧ child = [] ∨
        Fields.get? fields name = some (.obj child)) ∧
      insert child step rest value = .ok grown ∧ after = Fields.put fields name (.obj grown) := by
  rw [insert, hstep, if_neg (by decide)] at h
  split at h
  · rename_i hnone
    obtain ⟨grown, hgrown, rfl⟩ := Outcome.map_eq_ok.mp h
    exact ⟨[], grown, .inl ⟨hnone, rfl⟩, hgrown, rfl⟩
  · rename_i child hchild
    obtain ⟨grown, hgrown, rfl⟩ := Outcome.map_eq_ok.mp h
    exact ⟨child, grown, .inr hchild, hgrown, rfl⟩
  · cases h

/-- What an addition goes on with, if the field is there, is what the field has. -/
theorem eq_of_absent_or_held {held first : Json} {P : Prop}
    (h : Fields.get? fields name = none ∧ P ∨ Fields.get? fields name = some held)
    (hfirst : Fields.get? fields name = some first) : first = held := by
  rcases h with ⟨hnone, _⟩ | hsome
  · rw [hnone] at hfirst
    cases hfirst
  · exact Option.some.inj (hfirst.symm.trans hsome)

/-- An addition changes the field of the first name alone. -/
theorem exists_put_of_insert {path : List String} (h : insert fields name path value = .ok after) :
    ∃ held, after = Fields.put fields name held := by
  cases path with
  | nil => exact ⟨value, (Except.ok.inj h).symm⟩
  | cons step rest =>
    by_cases hstep : step.isEmpty
    · obtain rfl := String.isEmpty_iff.mp hstep
      obtain ⟨_, items, _, rfl⟩ := insert_item_eq_ok h
      exact ⟨_, rfl⟩
    · obtain ⟨_, grown, _, _, rfl⟩ := insert_step_eq_ok ((Bool.not_eq_true _).mp hstep) h
      exact ⟨_, rfl⟩

/-- What an addition does to a value other than an object: the value stands elsewhere and stays, or
it is overwritten, or it is the list to which an item is added. -/
theorem insert_cases {path place : List String} {held : Json}
    (h : insert fields name path value = .ok after)
    (hheld : (Json.obj fields).at? place = some held) (hvalue : ∀ child, held ≠ .obj child) :
    let target := name :: path.takeWhile fun step => !step.isEmpty
    (¬ place <+: target ∧ ¬ target <+: place ∧ (Json.obj after).at? place = some held) ∨
      (path.any String.isEmpty = false ∧ target <+: place) ∨
      (path.any String.isEmpty = true ∧ target = place ∧ ∃ items, held = .arr items ∧
        (Json.obj after).at? place = some (.arr (items ++ [value]))) := by
  -- the induction is on the path of the addition, which the place follows as long as they agree
  induction path generalizing fields after name place with
  | nil =>
    cases place with
    | nil => exact absurd (Option.some.inj hheld).symm (hvalue fields)
    | cons other rest =>
      by_cases hname : name = other
      · subst hname
        exact .inr (.inl ⟨rfl, by simp⟩)
      · cases h
        left
        simp [at?_put, hname, Ne.symm hname, hheld]
  | cons step path ih =>
    cases place with
    | nil => exact absurd (Option.some.inj hheld).symm (hvalue fields)
    | cons other rest =>
      by_cases hname : name = other
      · subst hname
        rw [at?_obj_cons] at hheld
        obtain ⟨first, hfirst, hheld⟩ := Option.bind_eq_some_iff.mp hheld
        by_cases hstep : step.isEmpty
        · obtain rfl := String.isEmpty_iff.mp hstep
          obtain ⟨rfl, items, hitems, rfl⟩ := insert_item_eq_ok h
          obtain rfl := eq_of_absent_or_held hitems hfirst
          cases rest with
          | nil =>
            cases hheld
            exact .inr (.inr ⟨rfl, rfl, items, rfl, at?_put_self fields name _ []⟩)
          | cons _ _ => cases hheld
        · rw [Bool.not_eq_true] at hstep
          obtain ⟨child, grown, hchild, hinsert, rfl⟩ := insert_step_eq_ok hstep h
          obtain rfl := eq_of_absent_or_held hchild hfirst
          have hbelow := ih hinsert hheld
          simpa [at?_put, hstep] using hbelow
      · obtain ⟨value', rfl⟩ := exists_put_of_insert h
        left
        simp [at?_put, hname, Ne.symm hname, hheld]

/-- What is added stands at its place. -/
theorem at?_of_insert {path : List String} (h : insert fields name path value = .ok after) :
    let target := name :: path.takeWhile fun step => !step.isEmpty
    if path.any String.isEmpty then
      ∃ items, (Json.obj after).at? target = some (.arr items) ∧ value ∈ items
    else (Json.obj after).at? target = some value := by
  induction path generalizing fields after name with
  | nil =>
    cases h
    exact at?_put_self fields name value []
  | cons step path ih =>
    by_cases hstep : step.isEmpty
    · obtain rfl := String.isEmpty_iff.mp hstep
      obtain ⟨rfl, items, _, rfl⟩ := insert_item_eq_ok h
      exact ⟨items ++ [value], at?_put_self fields name _ [], by simp⟩
    · rw [Bool.not_eq_true] at hstep
      obtain ⟨_, grown, _, hinsert, rfl⟩ := insert_step_eq_ok hstep h
      have hbelow := ih hinsert
      simpa [at?_put, hstep] using hbelow

end

namespace Leaf

variable {a b leaf : Leaf} {fields after : Fields} {value : Json}

/-- A leaf that is in a bag is in a text or in a list at its place, which is no object. -/
theorem IsIn.exists_held {bag : Json} (h : leaf.IsIn bag) :
    ∃ held, bag.at? leaf.place = some held ∧ (∀ child, held ≠ .obj child) ∧
      (leaf.isItem = true ∧ (∃ items, held = .arr items ∧ .str leaf.text ∈ items) ∨
        leaf.isItem = false ∧ held = .str leaf.text) := by
  rw [IsIn] at h
  cases hitem : leaf.isItem with
  | true =>
    rw [hitem] at h
    obtain ⟨items, hplace, htext⟩ := h
    exact ⟨_, hplace, by simp, .inl ⟨rfl, items, rfl, htext⟩⟩
  | false =>
    rw [hitem] at h
    exact ⟨_, h, by simp, .inr ⟨rfl, rfl⟩⟩

/-- A leaf is in the fields to which it was added. -/
theorem isIn_insert (h : leaf.insert fields = .ok after) : leaf.IsIn (.obj after) :=
  at?_of_insert h

/-- A leaf stays in the bag when another that does not overwrite it is added. -/
theorem IsIn.of_insert (ha : a.IsIn (.obj fields))
    (h : Brackets.insert fields b.head b.path value = .ok after) (hb : ¬ b.Overwrites a) :
    a.IsIn (.obj after) := by
  obtain ⟨held, hplace, hvalue, hheld⟩ := ha.exists_held
  rw [IsIn]
  rcases insert_cases h hplace hvalue with ⟨_, _, hsame⟩ | hover | ⟨_, _, items, rfl, hgrown⟩
  · rcases hheld with ⟨hitem, items, rfl, htext⟩ | ⟨hitem, rfl⟩
    · rw [if_pos hitem]
      exact ⟨items, hsame, htext⟩
    · rw [if_neg (by simp [hitem])]
      exact hsame
  · exact absurd hover hb
  · rcases hheld with ⟨hitem, others, hlist, htext⟩ | ⟨_, htext⟩
    · cases hlist
      rw [if_pos hitem]
      exact ⟨_, hgrown, List.mem_append_left _ htext⟩
    · cases htext

/-- A leaf that clashes with one in the bag is added only over it. -/
theorem overwrites_of_clashes (ha : a.IsIn (.obj fields))
    (h : Brackets.insert fields b.head b.path value = .ok after) (hclash : a.Clashes b) :
    b.Overwrites a := by
  obtain ⟨held, hplace, hvalue, hheld⟩ := ha.exists_held
  rcases insert_cases h hplace hvalue with ⟨habove, hbelow, _⟩ | hover | ⟨hb, hsame, items, rfl, _⟩
  · rcases hclash.1 with h | h
    · exact absurd h habove
    · exact absurd h hbelow
  · exact hover
  · rcases hheld with ⟨hitem, _⟩ | ⟨_, htext⟩
    · exact absurd (hitem.trans hb.symm) (hclash.2 hsame.symm)
    · cases htext

end Leaf

/-! ## Reading a pair -/

section

variable {fields after : Fields}

/-- A pair that is added is that of a leaf. -/
theorem exists_leaf_of_addPair {pair : String × String} (h : addPair fields pair = .ok after) :
    ∃ leaf : Leaf, pair = leaf.pair ∧ leaf.Written := by
  obtain ⟨key, text⟩ := pair
  obtain ⟨⟨head, path⟩, hsplit, _⟩ := Outcome.bind_eq_ok.mp h
  obtain ⟨hwritten, rfl⟩ := written_of_split hsplit text
  exact ⟨⟨head, path, text⟩, rfl, hwritten⟩

/-- The text of a leaf is what is added, unless it is read as JSON. -/
theorem insert_of_addPair {leaf : Leaf} (hwritten : leaf.Written)
    (h : addPair fields leaf.pair = .ok after) :
    ∃ value, (leaf.isJson = false → value = .str leaf.text) ∧
      insert fields leaf.head leaf.path value = .ok after := by
  rw [Leaf.pair, addPair, Outcome.bind_of_ok (split_key hwritten.unopened hwritten.unclosed)] at h
  obtain ⟨value, hvalue, hinsert⟩ := Outcome.bind_eq_ok.mp h
  refine ⟨value, ?_, hinsert⟩
  intro hjson
  rw [Leaf.isJson] at hjson
  simp only [pairValue, hjson] at hvalue
  exact (Except.ok.inj hvalue).symm

/-- Pairs that are added are the pairs of leaves with written keys. -/
theorem exists_leaves_of_foldlM {pairs : List (String × String)}
    (h : pairs.foldlM addPair fields = .ok after) :
    ∃ leaves : List Leaf, pairs = leaves.map Leaf.pair ∧ ∀ leaf ∈ leaves, leaf.Written := by
  induction pairs generalizing fields with
  | nil => exact ⟨[], rfl, by simp⟩
  | cons pair rest ih =>
    rw [List.foldlM_cons] at h
    obtain ⟨grown, hgrown, hrest⟩ := Outcome.bind_eq_ok.mp h
    obtain ⟨leaf, rfl, hleaf⟩ := exists_leaf_of_addPair hgrown
    obtain ⟨leaves, rfl, hleaves⟩ := ih hrest
    exact ⟨leaf :: leaves, rfl, List.forall_mem_cons.mpr ⟨hleaf, hleaves⟩⟩

end

/-! ## What stays -/

namespace Leaf

variable {a b leaf : Leaf} {fields after : Fields} {bag : Json}

/-- What is put over a leaf that is put over a third is put over the third. -/
theorem Overwrites.trans (hb : b.Overwrites a) (ha : a.Overwrites leaf) : b.Overwrites leaf :=
  ⟨hb.1, hb.2.trans ha.2⟩

/-- The place of a leaf that is no item is its key. -/
theorem place_eq (h : leaf.isItem = false) : leaf.place = leaf.head :: leaf.path := by
  rw [place, List.takeWhile_eq_self_iff.mpr]
  simpa [isItem] using h

/-- Leaves at one place that are no items have one key. -/
theorem key_eq_of_place_eq (ha : a.isItem = false) (hb : b.isItem = false)
    (h : a.place = b.place) : a.key = b.key := by
  rw [place_eq ha, place_eq hb] at h
  obtain ⟨hhead, hpath⟩ := List.cons.inj h
  rw [key, key, hhead, hpath]

/-- A text is no longer in a bag that holds another over it. -/
theorem not_isIn_of_overwrites (hb : b.IsIn bag) (hover : b.Overwrites a) (hkey : b.key ≠ a.key) :
    ¬ a.IsIn bag := by
  intro ha
  obtain ⟨held, hplace, _, hheld⟩ := ha.exists_held
  obtain ⟨below, hbelow⟩ := hover.2
  rw [IsIn, if_neg (by simp [hover.1])] at hb
  rw [← hbelow, at?_append, hb] at hplace
  cases below with
  | nil =>
    cases hplace
    rcases hheld with ⟨_, items, hlist, _⟩ | ⟨hitem, _⟩
    · cases hlist
    · exact hkey (key_eq_of_place_eq hover.1 hitem (by simpa using hbelow))
  | cons _ _ => cases hplace

section Runs

variable {later : List Leaf}

/-- A leaf stays in the bag while no leaf that overwrites it is added. -/
theorem IsIn.of_foldlM (ha : a.IsIn (.obj fields)) (hwritten : ∀ b ∈ later, b.Written)
    (h : (later.map pair).foldlM addPair fields = .ok after)
    (hkeeps : ∀ b ∈ later, ¬ b.Overwrites a) : a.IsIn (.obj after) := by
  induction later generalizing fields with
  | nil =>
    cases h
    exact ha
  | cons b rest ih =>
    obtain ⟨hb, hrest⟩ := List.forall_mem_cons.mp hwritten
    obtain ⟨hkeep, hkeeps⟩ := List.forall_mem_cons.mp hkeeps
    rw [List.map_cons, List.foldlM_cons] at h
    obtain ⟨grown, hgrown, h⟩ := Outcome.bind_eq_ok.mp h
    obtain ⟨value, _, hinsert⟩ := insert_of_addPair hb hgrown
    exact ih (ha.of_insert hinsert hkeep) hrest h hkeeps

/-- The last leaf put over another stays, and the other does not. -/
theorem not_isIn_of_foldlM (hwritten : ∀ b ∈ later, b.Written)
    (h : (later.map pair).foldlM addPair fields = .ok after)
    (hover : ∃ b ∈ later, b.Overwrites a)
    (htexts : ∀ b ∈ later, b.Overwrites a → b.isJson = false ∧ b.key ≠ a.key) :
    ¬ a.IsIn (.obj after) := by
  induction later generalizing fields with
  | nil =>
    obtain ⟨_, hmem, _⟩ := hover
    cases hmem
  | cons b rest ih =>
    obtain ⟨hb, hrest⟩ := List.forall_mem_cons.mp hwritten
    obtain ⟨htext, htexts⟩ := List.forall_mem_cons.mp htexts
    rw [List.map_cons, List.foldlM_cons] at h
    obtain ⟨grown, hgrown, h⟩ := Outcome.bind_eq_ok.mp h
    by_cases hmore : ∃ b ∈ rest, b.Overwrites a
    · exact ih hrest h hmore htexts
    · have hlast : b.Overwrites a := by
        rw [List.exists_mem_cons_iff] at hover
        exact hover.resolve_right hmore
      obtain ⟨hjson, hkey⟩ := htext hlast
      obtain ⟨value, hvalue, hinsert⟩ := insert_of_addPair hb hgrown
      obtain rfl := hvalue hjson
      have hkept : b.IsIn (.obj after) := by
        refine (isIn_insert hinsert).of_foldlM hrest h ?_
        intro c hc hcover
        exact hmore ⟨c, hc, hcover.trans hlast⟩
      exact not_isIn_of_overwrites hkept hlast hkey

end Runs

end Leaf

/-- Of the accepted pairs, one whose text is not read as JSON can be read back from the bag unless
a later one is put over it, and a later one that clashes with it is put over it. -/
theorem isIn_iff_not_overwritten {pairs : List (String × String)} {bag : Json}
    (accepted : ofPairs pairs = .ok bag) :
    ∃ leaves : List Leaf, pairs = leaves.map Leaf.pair ∧ (∀ leaf ∈ leaves, leaf.Written) ∧
      ∀ before leaf after, leaves = before ++ leaf :: after → leaf.isJson = false →
        ((∀ later ∈ after, later.Overwrites leaf →
            later.isJson = false ∧ later.key ≠ leaf.key) →
          (leaf.IsIn bag ↔ ∀ later ∈ after, ¬ later.Overwrites leaf)) ∧
        ∀ between later rest, after = between ++ later :: rest →
          (∀ other ∈ between, ¬ other.Overwrites leaf) →
          leaf.Clashes later → later.Overwrites leaf := by
  obtain ⟨fields, hfields, rfl⟩ := Outcome.map_eq_ok.mp accepted
  obtain ⟨leaves, rfl, hwritten⟩ := exists_leaves_of_foldlM hfields
  refine ⟨leaves, rfl, hwritten, ?_⟩
  rintro before leaf after rfl hjson
  obtain ⟨hleaf, hafter⟩ := List.forall_mem_cons.mp (List.forall_mem_append.mp hwritten).2
  rw [List.map_append, List.foldlM_append] at hfields
  obtain ⟨earlier, _, hfields⟩ := Outcome.bind_eq_ok.mp hfields
  rw [List.map_cons, List.foldlM_cons] at hfields
  obtain ⟨grown, hgrown, hfields⟩ := Outcome.bind_eq_ok.mp hfields
  -- the leaf is in the bag once it is added
  have hadded : leaf.IsIn (.obj grown) := by
    obtain ⟨value, hvalue, hinsert⟩ := insert_of_addPair hleaf hgrown
    obtain rfl := hvalue hjson
    exact Leaf.isIn_insert hinsert
  constructor
  · intro htexts
    constructor
    · intro hkept later hlater hover
      exact Leaf.not_isIn_of_foldlM hafter hfields ⟨later, hlater, hover⟩ htexts hkept
    · exact hadded.of_foldlM hafter hfields
  · rintro between later rest rfl hkeeps hclash
    obtain ⟨hbetween, hrest⟩ := List.forall_mem_append.mp hafter
    rw [List.map_append, List.foldlM_append] at hfields
    obtain ⟨reached, hreached, hfields⟩ := Outcome.bind_eq_ok.mp hfields
    rw [List.map_cons, List.foldlM_cons] at hfields
    obtain ⟨next, hnext, _⟩ := Outcome.bind_eq_ok.mp hfields
    obtain ⟨value, _, hinsert⟩ := insert_of_addPair (List.forall_mem_cons.mp hrest).1 hnext
    exact Leaf.overwrites_of_clashes (hadded.of_foldlM hbetween hreached hkeeps) hinsert hclash

/-- Among names, tags and pages every text that no later pair overwrites is read back. -/
theorem exists_bag_of_names_and_tags :
    ∃ bag leaves, ofPairs [("filters[name]", "x"), ("filters[tag][]", "a"),
        ("filters[tag][]", "b"), ("page", "1"), ("page", "2")] = .ok bag ∧
      [("filters[name]", "x"), ("filters[tag][]", "a"), ("filters[tag][]", "b"), ("page", "1"),
        ("page", "2")] = leaves.map Leaf.pair ∧
      ∀ before leaf after, leaves = before ++ leaf :: after → leaf.isJson = false →
        (∀ later ∈ after, ¬ later.Overwrites leaf) → leaf.IsIn bag := by
  have accepted : ofPairs [("filters[name]", "x"), ("filters[tag][]", "a"),
      ("filters[tag][]", "b"), ("page", "1"), ("page", "2")] =
        .ok (.obj [("filters", .obj [("name", .str "x"), ("tag", .arr [.str "a", .str "b"])]),
          ("page", .str "2")]) := by
    rfl
  obtain ⟨leaves, hpairs, _, hkept⟩ := isIn_iff_not_overwritten accepted
  refine ⟨_, leaves, accepted, hpairs, ?_⟩
  intro before leaf after hleaves hjson hover
  have htexts : ∀ later ∈ after, later.Overwrites leaf →
      later.isJson = false ∧ later.key ≠ leaf.key := by
    intro later hlater h
    exact absurd h (hover later hlater)
  exact ((hkept before leaf after hleaves hjson).1 htexts).mpr hover

/-- A text is lost without a fault to a later pair of a shorter key, which is rejected when it
comes first. -/
theorem lost_under_shorter_key :
    let leaf : Leaf := ⟨"filters", ["a", "b"], "1"⟩
    let bag : Json := .obj [("filters", .obj [("a", .str "2")])]
    leaf.pair = ("filters[a][b]", "1") ∧ leaf.isJson = false ∧
      ofPairs [("filters[a][b]", "1"), ("filters[a]", "2")] = .ok bag ∧ ¬ leaf.IsIn bag ∧
      ofPairs [("filters[a]", "2"), ("filters[a][b]", "1")] =
        .error (.invalid (.objectAndScalar "a")) := by
  refine ⟨rfl, rfl, rfl, ?_, rfl⟩
  intro hkept
  have hplace : none = some (Json.str "1") := hkept
  cases hplace

end Brackets

end Records
