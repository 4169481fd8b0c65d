import Records.Proofs.Config.Sound
import Records.Proofs.Uuid
import Records.Service

/-!
# One form for every key

A key is read in the same way from the path of a request and from the body of one, and reading a key
that was read gives it back, as a value and as a text.  Which texts are accepted, and which of them
give the same key, is decided by what they spell: a value of 128 bits, a 64-bit integer, or the text
itself (`key_has_one_form`).
-/

set_option autoImplicit false

namespace Records

/-- A text spells a signed 64-bit integer. -/
def Numeral.SpellsInt64 (raw : String) (n : Int) : Prop :=
  Spells raw.toList n ∧ -2 ^ 63 ≤ n ∧ n ≤ 2 ^ 63 - 1

namespace Service

/-- Keys are read by what texts spell: a text is accepted when it spells a value and refused for a
reason otherwise, and accepted texts give the same key when they spell the same value. -/
structure ReadsBy {α : Type} (service : Service) (Spells : String → α → Prop) (why : Fault) :
    Prop where
  accepted : ∀ raw, (∃ key, service.readKey raw = .ok key) ↔ ∃ value, Spells raw value
  refused : ∀ raw, (∀ value, ¬ Spells raw value) → service.readKey raw = .error why
  same : ∀ raw other a b, Spells raw a → Spells other b →
    (service.readKey raw = service.readKey other ↔ a = b)

variable {service : Service} {raw : String} {key : Json}

/-- The key made of what was read, or the reason why nothing was. -/
def keyOr {β : Type} (why : Fault) (keyOf : β → Json) : Option β → Except Fault Json
  | some b => .ok (keyOf b)
  | none => .error why

/-- A key is read exactly when its reader finds a value, and it is that value's key. -/
theorem keyOr_eq_ok {β : Type} {why : Fault} {keyOf : β → Json} {read : Option β} :
    keyOr why keyOf read = .ok key ↔ ∃ b, read = some b ∧ key = keyOf b := by
  cases read <;> simp [keyOr, eq_comm]

/-- A reader that tells texts apart by what they spell makes keys that do, if no two of its results
make the same key. -/
theorem ReadsBy.of_reader {α β : Type} {Spells : String → α → Prop} {why : Fault}
    {read? : String → Option β} {keyOf : β → Json}
    (hread : ∀ raw, service.readKey raw = keyOr why keyOf (read? raw))
    (hkey : Function.Injective keyOf)
    (accepted : ∀ raw, (∃ b, read? raw = some b) ↔ ∃ value, Spells raw value)
    (same : ∀ raw other a b, Spells raw a → Spells other b → (read? raw = read? other ↔ a = b)) :
    service.ReadsBy Spells why where
  accepted raw := by
    simp only [← accepted, hread, keyOr_eq_ok]
    grind
  refused raw h := by
    cases hraw : read? raw with
    | none => rw [hread, hraw, keyOr]
    | some b =>
      obtain ⟨value, hvalue⟩ := (accepted raw).mp ⟨b, hraw⟩
      exact absurd hvalue (h value)
  same raw other a b ha hb := by
    rw [← same raw other a b ha hb, hread, hread]
    cases read? raw <;> cases read? other <;> simp [keyOr, hkey.eq_iff]

section Identifiers

variable (kind : service.resource.keyType = .uuid)

include kind

/-- The key of a resource with `uuid` keys is the normal form of the text. -/
theorem readKey_of_uuid (raw : String) :
    service.readKey raw = keyOr (.badRequest .invalidUuid) .str (Uuid.normalize? raw) := by
  simp only [readKey, kind]
  cases Uuid.normalize? raw <;> rfl

/-- Keys of type `uuid` are read by what texts spell as uuids. -/
theorem readsBy_of_uuid : service.ReadsBy Uuid.Spells (.badRequest .invalidUuid) :=
  .of_reader (readKey_of_uuid kind) (fun _ _ h => Json.str.inj h)
    (fun _ => Uuid.exists_normalize?_iff) fun _ _ _ _ => Uuid.normalize?_eq_iff

/-- An identifier is read in normal form, and its normal form is read as it is. -/
theorem isNormal_of_readKey (h : service.readKey raw = .ok key) :
    ∃ id, key = .str id ∧ Uuid.IsNormal id ∧ service.readKey id = .ok key := by
  rw [readKey_of_uuid kind, keyOr_eq_ok] at h
  obtain ⟨id, hid, rfl⟩ := h
  obtain ⟨hnormal, hagain⟩ := Uuid.isNormal_of_normalize? hid
  exact ⟨id, rfl, hnormal, by rw [readKey_of_uuid kind, hagain, keyOr]⟩

end Identifiers

/-- A text spells a 64-bit integer exactly when it is read as that integer. -/
theorem spellsInt64_iff {n : Int} : Numeral.SpellsInt64 raw n ↔ Numeral.int64? raw = some n := by
  rw [Numeral.int64?_eq_some_iff, Numeral.isInt64_iff]
  exact Iff.rfl

section Integers

variable (kind : service.resource.keyType = .bigInt ∨ service.resource.keyType = .int)

include kind

/-- The key of a resource with integer keys is the integer that the text is read as. -/
theorem readKey_of_int (raw : String) :
    service.readKey raw = keyOr (.badRequest .invalidId) .int (Numeral.int64? raw) := by
  rcases kind with kind | kind <;> simp only [readKey, kind] <;> cases Numeral.int64? raw <;> rfl

/-- Integer keys are read by what texts spell as 64-bit integers. -/
theorem readsBy_of_int : service.ReadsBy Numeral.SpellsInt64 (.badRequest .invalidId) := by
  refine .of_reader (readKey_of_int kind) (fun _ _ h => Json.int.inj h) ?_ ?_
  · intro raw
    simp only [spellsInt64_iff]
  · intro raw other a b ha hb
    rw [spellsInt64_iff.mp ha, spellsInt64_iff.mp hb, Option.some.injEq]

/-- The integer that a text spells is read as it is, and so is its numeral. -/
theorem exists_int_of_readKey (h : service.readKey raw = .ok key) :
    ∃ n, key = .int n ∧ Numeral.SpellsInt64 raw n ∧ service.keyOfValue key = .ok key ∧
      service.readKey (Numeral.decimal n) = .ok key := by
  rw [readKey_of_int kind, keyOr_eq_ok] at h
  obtain ⟨n, hn, rfl⟩ := h
  have hnumber : (Json.int n).int64? = some n := if_pos (Numeral.int64?_eq_some_iff.mp hn).2
  refine ⟨n, rfl, spellsInt64_iff.mpr hn, ?_,
    by rw [readKey_of_int kind, Numeral.int64?_decimal, hnumber, keyOr]⟩
  rcases kind with kind | kind <;> simp only [keyOfValue, hnumber, kind]

/-- The keys are the 64-bit integers. -/
theorem exists_readKey_eq_int_iff {n : Int} :
    (∃ raw, service.readKey raw = .ok (.int n)) ↔ -2 ^ 63 ≤ n ∧ n ≤ 2 ^ 63 - 1 := by
  constructor
  · rintro ⟨raw, h⟩
    obtain ⟨m, hm, hspells, _⟩ := exists_int_of_readKey kind h
    cases hm
    exact hspells.2
  · intro h
    have hnumber : (Json.int n).int64? = some n := if_pos (Numeral.isInt64_iff.mpr h)
    exact ⟨Numeral.decimal n, by rw [readKey_of_int kind, Numeral.int64?_decimal, hnumber, keyOr]⟩

end Integers

/-- A key that was read is read again as it is, as a value and as a text. -/
theorem reads_again (h : service.readKey raw = .ok key) :
    service.keyOfValue key = .ok key ∧
      ∃ text, key.text? = some text ∧ service.readKey text = .ok key := by
  cases kind : service.resource.keyType with
  | uuid =>
    obtain ⟨id, rfl, _, hagain⟩ := isNormal_of_readKey kind h
    exact ⟨hagain, id, rfl, hagain⟩
  | bigInt =>
    obtain ⟨n, rfl, _, hvalue, htext⟩ := exists_int_of_readKey (.inl kind) h
    exact ⟨hvalue, _, rfl, htext⟩
  | int =>
    obtain ⟨n, rfl, _, hvalue, htext⟩ := exists_int_of_readKey (.inr kind) h
    exact ⟨hvalue, _, rfl, htext⟩
  | text =>
    have hread : ∀ raw, service.readKey raw = .ok (.str raw) := fun raw => by
      simp only [readKey, kind]
    cases (hread raw).symm.trans h
    exact ⟨hread raw, raw, rfl, hread raw⟩

/-- A key that is given as a string is read like one in a path, and a key that was read is read
again as it is.  Identifiers and integers are read by what texts spell: an identifier gives its
normal form, and the integers that texts give are those of 64 bits. -/
theorem key_has_one_form (service : Service) :
    (∀ raw, service.keyOfValue (.str raw) = service.readKey raw) ∧
    (∀ raw key, service.readKey raw = .ok key →
      service.keyOfValue key = .ok key ∧
        ∃ text, key.text? = some text ∧ service.readKey text = .ok key) ∧
    (service.resource.keyType = .uuid →
      service.ReadsBy Uuid.Spells (.badRequest .invalidUuid) ∧
      ∀ raw key, service.readKey raw = .ok key → ∃ id, key = .str id ∧ Uuid.IsNormal id) ∧
    (service.resource.keyType = .bigInt ∨ service.resource.keyType = .int →
      service.ReadsBy Numeral.SpellsInt64 (.badRequest .invalidId) ∧
      (∀ raw key, service.readKey raw = .ok key → ∃ n, key = .int n ∧ Numeral.SpellsInt64 raw n) ∧
      ∀ n, (∃ raw, service.readKey raw = .ok (.int n)) ↔ -2 ^ 63 ≤ n ∧ n ≤ 2 ^ 63 - 1) ∧
    (service.resource.keyType = .text → ∀ raw, service.readKey raw = .ok (.str raw)) := by
  refine ⟨fun _ => rfl, fun _ _ => reads_again, ?_, ?_, ?_⟩
  · intro kind
    refine ⟨readsBy_of_uuid kind, fun raw key h => ?_⟩
    obtain ⟨id, hid, hnormal, _⟩ := isNormal_of_readKey kind h
    exact ⟨id, hid, hnormal⟩
  · intro kind
    refine ⟨readsBy_of_int kind, fun raw key h => ?_, fun n => exists_readKey_eq_int_iff kind⟩
    obtain ⟨n, hn, hspells, _⟩ := exists_int_of_readKey kind h
    exact ⟨n, hn, hspells⟩
  · intro kind raw
    simp only [readKey, kind]

/-- An integer with a sign and zeros in front, the least integer, and an identifier after the name
of its namespace. -/
theorem key_has_one_form_journal :
    let posts := Config.resolveResource Config.postsDef
    let counted : Service := ⟨Config.journal, posts, .api⟩
    let tagged : Service := ⟨Config.journal, { posts with keyType := .uuid }, .api⟩
    counted.readKey "+007" = .ok (.int 7) ∧ counted.keyOfValue (.int 7) = .ok (.int 7) ∧
      (∃ raw, counted.readKey raw = .ok (.int (-2 ^ 63))) ∧
      tagged.readKey "urn:uuid:A0EEBC99-9C0B-4EF8-BB6D-6BB9BD380A11" =
        .ok (.str "a0eebc99-9c0b-4ef8-bb6d-6bb9bd380a11") ∧
      Uuid.IsNormal "a0eebc99-9c0b-4ef8-bb6d-6bb9bd380a11" := by
  intro posts counted tagged
  have hnumber : counted.readKey "+007" = .ok (.int 7) := rfl
  have hid : tagged.readKey "urn:uuid:A0EEBC99-9C0B-4EF8-BB6D-6BB9BD380A11" =
      .ok (.str "a0eebc99-9c0b-4ef8-bb6d-6bb9bd380a11") := rfl
  obtain ⟨_, hagain, _, hintegers, _⟩ := key_has_one_form counted
  obtain ⟨_, _, hidentifiers, _⟩ := key_has_one_form tagged
  obtain ⟨_, hkey, hnormal⟩ := (hidentifiers rfl).2 _ _ hid
  cases hkey
  exact ⟨hnumber, (hagain _ _ hnumber).1, ((hintegers (.inl rfl)).2.2 _).mpr (by decide), hid,
    hnormal⟩

end Service

end Records
