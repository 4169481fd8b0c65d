import Records.Json.Print

/-!
# Comparing stored values

Values are compared loosely where a key or a condition is matched: two numbers as doubles, anything
else by its text.  They are ordered by value within a kind and by text across kinds, and a missing
or null value comes last.
-/

set_option autoImplicit false

namespace Records

namespace Json

/-- The text of a value that is not null: a string itself, anything else compactly. -/
def text? : Json → Option String
  | .null => none
  | .str s => some s
  | value => some value.compact

/-- Whether two values are the same number, or have the same text. -/
def agrees (a b : Json) : Bool :=
  match a.double?, b.double? with
  | some x, some y => x.key = y.key
  | _, _ => a.text?.isSome && a.text? = b.text?

/-- The order of two values that are not null. -/
def order (a b : Json) : Ordering :=
  match a, b with
  | .str s, .str t => compare s t
  | .bool x, .bool y => compare x y
  | a, b =>
    match a.double?, b.double? with
    | some x, some y => x.order y
    | _, _ => compare a.compact b.compact

/-- The order of two values that may be missing; null counts as missing, and comes last. -/
def orderOptional (a b : Option Json) : Ordering :=
  match present? a, present? b with
  | none, none => .eq
  | none, some _ => .gt
  | some _, none => .lt
  | some a, some b => a.order b

end Json

end Records
