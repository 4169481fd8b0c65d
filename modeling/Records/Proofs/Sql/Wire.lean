import Mathlib.Algebra.Ring.Int.Defs
import Mathlib.Algebra.Ring.Nat
import Records.Proofs.Number.Numeral
import Records.Proofs.Text.Utf8
import Records.Sql.Bind

/-!
# Bound values read back

A value that is bound as it is can be read back from its wire form by the type that is announced for
it, when it is null, a boolean, a 64-bit integer or a string.  Bound as a text it travels as that
text or the one that names it; an array or an object travels as its compact text either way
(`wire_reads_back`).
-/

set_option autoImplicit false

namespace Records

/-- Whether a value is null, a boolean, a signed 64-bit integer or a string. -/
def Json.isPlain : Json → Bool
  | .null => true
  | .bool _ => true
  | .int n => Numeral.isInt64 n
  | .str _ => true
  | _ => false

namespace BindValue

/-- The number that bytes spell, the highest first. -/
def ofBigEndian (bytes : List UInt8) : Nat :=
  bytes.foldl (fun n byte => 256 * n + byte.toNat) 0

/-- The signed integer whose two's complement on 64 places is a number. -/
def signed64 (n : Nat) : Int := if n < 2 ^ 63 then n else n - 2 ^ 64

/-- The value that bytes spell under the type that is announced for them. -/
def ofBytes? (type : String) (bytes : List UInt8) : Option Json :=
  match type with
  | "BOOL" =>
    match bytes with
    | [0] => some (.bool false)
    | [1] => some (.bool true)
    | _ => none
  | "INT8" => if bytes.length = 8 then some (.int (signed64 (ofBigEndian bytes))) else none
  | "TEXT" => (Text.decode? bytes).map fun text => .str (String.ofList text)
  | _ => none

/-- The value of a wire form; one without bytes is null under every type. -/
def ofWire? (type : String) : Option (List UInt8) → Option Json
  | none => some .null
  | some bytes => ofBytes? type bytes

/-- A bound value is announced under a type and has a wire form of some bytes. -/
def Travels (bound : BindValue) (type : String) (bytes : List UInt8) : Prop :=
  bound.typeName = type ∧ bound.wire? = some bytes

/-- A number is written in as many bytes as asked for. -/
theorem length_bigEndian (count n : Nat) : (bigEndian count n).length = count := by
  induction count generalizing n with
  | zero => rfl
  | succ count ih => rw [bigEndian, List.length_append, ih, List.length_singleton]

/-- The value of bytes with one more behind them. -/
theorem ofBigEndian_concat (bytes : List UInt8) (byte : UInt8) :
    ofBigEndian (bytes ++ [byte]) = 256 * ofBigEndian bytes + byte.toNat := by
  simp [ofBigEndian]

/-- A number written in bytes is read back up to the power of 256 that they hold. -/
theorem ofBigEndian_bigEndian (count n : Nat) :
    ofBigEndian (bigEndian count n) = n % 256 ^ count := by
  induction count generalizing n with
  | zero => simp [bigEndian, ofBigEndian, Nat.mod_one]
  | succ count ih =>
    have hlast : (UInt8.ofNat (n % 256)).toNat = n % 256 := Text.toNat_ofNat (by omega)
    rw [bigEndian, ofBigEndian_concat, ih, hlast, Nat.pow_succ', Nat.mod_mul, Nat.add_comm]

/-- The two's complement of an integer of 64 bits is read as that integer. -/
theorem signed64_emod {n : Int} (h : Numeral.isInt64 n = true) :
    signed64 (n % (Nat.pow 2 64 : Nat)).toNat = n := by
  have hrange := Numeral.isInt64_iff.mp h
  show signed64 (n % 18446744073709551616).toNat = n
  rw [signed64]
  split <;> omega

/-- The eight bytes of a signed 64-bit integer are read back as that integer. -/
theorem ofBytes?_int {n : Int} (h : Numeral.isInt64 n = true) :
    ofBytes? "INT8" (bigEndian 8 (n % (Nat.pow 2 64 : Nat)).toNat) = some (.int n) := by
  have hrange : (n % (Nat.pow 2 64 : Nat)).toNat < 256 ^ 8 := by
    show (n % 18446744073709551616).toNat < 18446744073709551616
    omega
  simp only [ofBytes?, length_bigEndian, ofBigEndian_bigEndian, Nat.mod_eq_of_lt hrange,
    signed64_emod h, if_true]

/-- The bytes of a text are read back as that text. -/
theorem ofBytes?_text (s : String) : ofBytes? "TEXT" (Text.utf8 s.toList) = some (.str s) := by
  simp only [ofBytes?, Text.decode?_utf8, Option.map_some, String.ofList_toList]

/-- A value with a type of its own is read back from what goes over the wire. -/
theorem ofWire?_typed {v : Json} (h : v.isPlain = true) :
    ofWire? (typed v).typeName (typed v).wire? = some v := by
  cases v with
  | null => rfl
  | bool b => cases b <;> rfl
  | int n =>
    have hrange : Numeral.isInt64 n = true := h
    rw [typed, if_pos hrange]
    exact ofBytes?_int hrange
  | str s => exact ofBytes?_text s
  | double d => cases h
  | arr items => cases h
  | obj fields => cases h

/-- A plain value is read back from its wire form under its type, so no two of them have the same
type and the same wire form.  As a text a string travels as it is, a boolean by its name and an
integer by its numeral; an array or an object travels as its compact text behind the byte 1 either
way. -/
theorem wire_reads_back :
    (∀ v : Json, v.isPlain = true → ofWire? (typed v).typeName (typed v).wire? = some v) ∧
    (∀ v w : Json, v.isPlain = true → w.isPlain = true →
      (typed v).typeName = (typed w).typeName → (typed v).wire? = (typed w).wire? → v = w) ∧
    (untyped .null).wire? = none ∧
    (∀ s, (untyped (.str s)).Travels "TEXT" (Text.utf8 s.toList)) ∧
    (∀ b, (untyped (.bool b)).Travels "TEXT"
      (Text.utf8 (if b then "true" else "false").toList)) ∧
    (∀ n, (untyped (.int n)).Travels "TEXT" (Text.utf8 (Numeral.decimal n).toList) ∧
      Numeral.signed? (Numeral.decimal n).toList = some n) ∧
    ∀ v : Json, v.isCompound = true →
      (typed v).Travels "JSONB" (1 :: Text.utf8 v.compact.toList) ∧
        (untyped v).Travels "JSONB" (1 :: Text.utf8 v.compact.toList) := by
  refine ⟨fun _ => ofWire?_typed, ?_, rfl, fun _ => ⟨rfl, rfl⟩, ?_, ?_, ?_⟩
  · intro v w hv hw htype hwire
    have hread := ofWire?_typed hv
    rw [htype, hwire, ofWire?_typed hw] at hread
    exact (Option.some.inj hread).symm
  · intro b
    cases b <;> exact ⟨rfl, rfl⟩
  · intro n
    refine ⟨⟨rfl, rfl⟩, ?_⟩
    rw [Numeral.decimal, String.toList_ofList, Numeral.signed?_ofInt]
  · intro v hv
    rw [Json.compact, String.toList_ofList]
    cases v with
    | arr items => exact ⟨⟨rfl, rfl⟩, rfl, rfl⟩
    | obj fields => exact ⟨⟨rfl, rfl⟩, rfl, rfl⟩
    | null | bool | int | double | str => cases hv

/-- A negative integer in two's complement, and an array. -/
theorem wire_reads_back_negative :
    (typed (.int (-2))).Travels "INT8" [255, 255, 255, 255, 255, 255, 255, 254] ∧
      ofWire? "INT8" (some [255, 255, 255, 255, 255, 255, 255, 254]) = some (.int (-2)) ∧
      (untyped (.arr [.null])).Travels "JSONB" (1 :: Text.utf8 "[null]".toList) := by
  have htravels : (typed (.int (-2))).Travels "INT8" [255, 255, 255, 255, 255, 255, 255, 254] :=
    ⟨rfl, rfl⟩
  have hread := wire_reads_back.1 (.int (-2)) rfl
  rw [htravels.1, htravels.2] at hread
  exact ⟨htravels, hread, (wire_reads_back.2.2.2.2.2.2 (.arr [.null]) rfl).2⟩

end BindValue

end Records
