import Logbook.Text.Bytes
import Logbook.Text.Quoted

/-!
# Hexadecimal text

Identifiers are written as eight hexadecimal digits and read in either case. Reading works on
bytes, and its three ways to fail are tried in a fixed order: an odd number of bytes, the first
byte that is no digit, and a length other than four bytes.

- `Hex.encode`: two digits per byte, in the letters asked for.
- `Hex.decode`: the bytes that digits spell, or why they spell none.
- `Hex.ofWord`, `Hex.toWord`: a 32-bit word as text, and back.
-/

namespace Logbook.Text.Hex

/-- Which letters stand for the digits from ten on. -/
inductive Letters
  | lower
  | upper
deriving DecidableEq

/-- Why a text does not spell a word. -/
inductive Error
  /-- The text has an odd number of bytes. -/
  | oddLength
  /-- The byte at `index` is the first that is no digit. -/
  | notDigit (byte : UInt8) (index : Nat)
  /-- The digits spell `bytes` bytes instead of four. -/
  | wrongSize (bytes : Nat)
deriving DecidableEq

/-- The cause in words. -/
def Error.message : Error → String
  | .oddLength => "Odd number of digits"
  | .notDigit byte index =>
    s!"Invalid character {quoted (Char.ofNat byte.toNat)} at position {index}"
  | .wrongSize bytes => s!"expected 4 bytes, got {bytes}"

/-- The character of a digit below sixteen. -/
def digit (letters : Letters) (n : Nat) : Char :=
  if n < 10 then Char.ofNat (48 + n)
  else match letters with
    | .lower => Char.ofNat (87 + n)
    | .upper => Char.ofNat (55 + n)

/-- The value of a digit, whatever its letters. -/
def digitValue? (b : UInt8) : Option Nat :=
  let n := b.toNat
  if 48 ≤ n ∧ n ≤ 57 then some (n - 48)
  else if 97 ≤ n ∧ n ≤ 102 then some (n - 87)
  else if 65 ≤ n ∧ n ≤ 70 then some (n - 55)
  else none

/-- Two digits per byte, the high half first. -/
def encode (letters : Letters) (bytes : List UInt8) : String :=
  String.ofList (bytes.flatMap fun b =>
    [digit letters (b.toNat / 16), digit letters (b.toNat % 16)])

/-- The value of the digit at `index`. -/
def digitAt (index : Nat) (b : UInt8) : Except Error Nat :=
  match digitValue? b with
  | some n => .ok n
  | none => .error (.notDigit b index)

/-- Reads digits two by two; `index` is the place of the first of them in the whole text. -/
def decodePairs (index : Nat) : List UInt8 → Except Error (List UInt8)
  | [] => .ok []
  | [_] => .error .oddLength
  | a :: b :: rest => do
    let high ← digitAt index a
    let low ← digitAt (index + 1) b
    let others ← decodePairs (index + 2) rest
    return UInt8.ofNat (high * 16 + low) :: others

/-- The bytes that the digits of a text spell. -/
def decode (s : String) : Except Error (List UInt8) :=
  let bytes := utf8 s
  if bytes.length % 2 = 1 then .error .oddLength else decodePairs 0 bytes

/-- The eight digits of a word. -/
def ofWord (letters : Letters) (w : UInt32) : String := encode letters (bigEndian w)

/-- The word that eight digits spell. -/
def toWord (s : String) : Except Error UInt32 := do
  let bytes ← decode s
  if bytes.length = 4 then return UInt32.ofNat (ofBigEndian bytes)
  else .error (.wrongSize bytes.length)

end Logbook.Text.Hex
