/-!
# Text and words as bytes

- `Text.utf8`: the UTF-8 bytes of a text, the unit in which identifiers are read and text
  payloads are stored.
- `Text.bigEndian`, `Text.ofBigEndian`: the four bytes of a 32-bit word, highest first.
-/

namespace Logbook.Text

/-- The UTF-8 bytes of a text. -/
def utf8 (s : String) : List UInt8 := s.toList.flatMap String.utf8EncodeChar

/-- The bytes of a word, highest first. -/
def bigEndian (w : UInt32) : List UInt8 :=
  [UInt8.ofNat (w.toNat / 16777216), UInt8.ofNat (w.toNat / 65536),
    UInt8.ofNat (w.toNat / 256), UInt8.ofNat w.toNat]

/-- The number that bytes spell, highest first. -/
def ofBigEndian (bytes : List UInt8) : Nat := bytes.foldl (fun n b => n * 256 + b.toNat) 0

/-- The four bytes of a word spell it. -/
theorem ofBigEndian_bigEndian (w : UInt32) : ofBigEndian (bigEndian w) = w.toNat := by
  have := w.toNat_lt
  simp only [ofBigEndian, bigEndian, List.foldl_cons, List.foldl_nil, UInt8.toNat_ofNat']
  omega

end Logbook.Text
