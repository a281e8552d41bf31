import Logbook.Refusal

/-!
# Structured values

Messages and snapshots travel as structured values: numbers, texts, lists, and objects with named
fields. This module holds the values and what reading any of them needs.

- `Value`: structured values. Integers are told apart from numbers with a fraction.
- `ReadError`: why a value does not read as what is wanted.
- `Value.named`: the fields of a record, which comes as an object or as a list in field order.
- `Value.variant`: the name and the body of an alternative.
- `Codec`: the types whose values are written as structured values and read back.
-/

namespace Logbook.Wire

/-- A structured value. -/
inductive Value
  | null
  | bool (b : Bool)
  | int (n : Int)
  /-- A number written with decimals, `digits` shifted by `places`. -/
  | decimal (digits : Int) (places : Nat)
  | text (s : String)
  | list (items : List Value)
  | object (fields : List (String × Value))

/-- Why a value does not read as what is wanted. -/
inductive ReadError
  /-- A position is needed and the unset mark stands there. -/
  | unsetPosition
  /-- The value has another shape, or a number is out of range. -/
  | malformed
deriving DecidableEq

/-- The cause in words, where there are any. -/
def ReadError.message? : ReadError → Option String
  | .unsetPosition => some Refusal.unsetPosition.message
  | .malformed => none

namespace Value

/-- The fields of a record whose fields have these names. An object names them itself, and may
have others besides; a list has exactly one item for each. -/
def named (names : List String) : Value → Except ReadError (List (String × Value))
  | .object fields => .ok fields
  | .list items =>
    if items.length = names.length then .ok (names.zip items) else .error .malformed
  | _ => .error .malformed

/-- The name and the body of an alternative. A bare name has an empty body. -/
def variant : Value → Except ReadError (String × Value)
  | .text name => .ok (name, .null)
  | .object [(name, body)] => .ok (name, body)
  | _ => .error .malformed

end Value

/-- The types whose values are written as structured values and read back from them. -/
class Codec (α : Type) where
  write : α → Value
  read : Value → Except ReadError α

export Codec (write read)

/-- Reads a field that has to be there. -/
def required {α : Type} [Codec α] (fields : List (String × Value)) (name : String) :
    Except ReadError α :=
  match fields.lookup name with
  | some v => read v
  | none => .error .malformed

end Logbook.Wire
