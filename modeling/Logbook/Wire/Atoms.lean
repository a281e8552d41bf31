import Logbook.Position
import Logbook.Record
import Logbook.Wire.Value

/-!
# Numbers and bytes as structured values

- Words, positions, instants and identifiers are integers within their range; a position is
  never read from the unset mark.
- A payload is a list of bytes. It is also read from a text, as its UTF-8 bytes.
- What may be missing is a null value.
-/

namespace Logbook.Wire

/-- An integer from zero up to below `bound`. -/
def readBelow (bound : Nat) : Value → Except ReadError Nat
  | .int n => if 0 ≤ n ∧ n < bound then .ok n.toNat else .error .malformed
  | _ => .error .malformed

instance : Codec Bool where
  write := .bool
  read
    | .bool b => .ok b
    | _ => .error .malformed

instance : Codec UInt8 where
  write w := .int w.toNat
  read v := UInt8.ofNat <$> readBelow 256 v

instance : Codec UInt32 where
  write w := .int w.toNat
  read v := UInt32.ofNat <$> readBelow 4294967296 v

instance : Codec UInt64 where
  write w := .int w.toNat
  read v := UInt64.ofNat <$> readBelow 18446744073709551616 v

instance : Codec Position where
  write p := .int p.toNat
  read v := do
    let n ← readBelow 4294967296 v
    match Position.ofNat? n with
    | some p => if p.IsSet then return p else .error .unsetPosition
    | none => .error .malformed

instance : Codec Instant where
  write t := .int t.millis
  read
    | .int n =>
      match Instant.ofInt? n with
      | some t => .ok t
      | none => .error .malformed
    | _ => .error .malformed

instance : Codec DeviceId where
  write d := write d.word
  read v := DeviceId.mk <$> read v

instance : Codec SessionId where
  write s := write s.word
  read v := SessionId.mk <$> read v

instance {α : Type} [Codec α] : Codec (Option α) where
  write
    | some a => write a
    | none => .null
  read
    | .null => .ok none
    | v => some <$> read v

instance : Codec Payload where
  write bytes := .list (bytes.map write)
  read
    | .list items => items.mapM read
    | .text s => .ok (Text.utf8 s)
    | _ => .error .malformed

/-- Reads a field that may be missing. -/
def optional {α : Type} [Codec α] (fields : List (String × Value)) (name : String) :
    Except ReadError (Option α) :=
  match fields.lookup name with
  | some v => read v
  | none => .ok none

end Logbook.Wire
