import Logbook.Identity
import Logbook.Proofs.Text.Hex

/-!
# Identifiers as text

Sessions and devices are 32-bit words under another name, and the text of both is the text of the
word; they differ only in the letters that they are written in.

- `WrittenInHex`: what such a text format promises: which texts are read, as what, how they are
  written again, and why the others are refused.
- `writtenInHex`: whatever stands for a word keeps the promise.
- `identifiers_written_in_hex`: sessions keep it in lower case and devices in upper case.
-/

namespace Logbook

open Text Text.Hex

variable {α : Type}

/-- The text format of identifiers that stand for the word `word` and are written in the letters
asked for. -/
structure WrittenInHex (letters : Letters) (word : α → UInt32) (write : α → String)
    (read : String → Except Hex.Error α) : Prop where
  /-- The texts of eight digits are read, and no others. -/
  accepted (s : String) : (∃ a, read s = .ok a) ↔ EightDigits s
  /-- What is read is the number that the digits are, the highest digit first. -/
  value {s : String} {a : α} (h : read s = .ok a) : (word a).toNat = number s.toList
  /-- It is written in the same digits, with the letters in the one case. -/
  rewritten {s : String} {a : α} (h : read s = .ok a) : write a = letters.recaseText s
  /-- What is written is read again. -/
  reread (a : α) : read (write a) = .ok a
  /-- A text is refused for the first cause that applies, and for no other. -/
  refused (s : String) (e : Hex.Error) : read s = .error e ↔ Refused s e

theorem map_eq_ok_iff {ε β : Type} {f : β → α} {x : Except ε β} {a : α} :
    f <$> x = .ok a ↔ ∃ b, x = .ok b ∧ f b = a := by
  constructor
  · intro h
    cases x with
    | error e => cases h
    | ok b =>
      cases h
      exact ⟨b, rfl, rfl⟩
  · rintro ⟨b, rfl, rfl⟩
    rfl

theorem map_eq_error_iff {ε β : Type} {f : β → α} {x : Except ε β} {e : ε} :
    f <$> x = .error e ↔ x = .error e := by
  constructor
  · intro h
    cases x with
    | error e =>
      cases h
      rfl
    | ok b => cases h
  · rintro rfl
    rfl

/-- What stands for a word is written and read as the word is. -/
theorem writtenInHex (letters : Letters) {make : UInt32 → α} {word : α → UInt32}
    (hword : ∀ w, word (make w) = w) (hmake : ∀ a, make (word a) = a) :
    WrittenInHex letters word (fun a => ofWord letters (word a))
      (fun s => make <$> toWord s) where
  accepted s := by
    constructor
    · rintro ⟨a, ha⟩
      obtain ⟨w, hw, -⟩ := map_eq_ok_iff.mp ha
      exact (toWord_eq_ok_iff.mp hw).1
    · intro h
      exact ⟨_, map_eq_ok_iff.mpr ⟨_, toWord_of_eightDigits h, rfl⟩⟩
  value h := by
    obtain ⟨w, hw, rfl⟩ := map_eq_ok_iff.mp h
    rw [hword]
    exact (toWord_eq_ok_iff.mp hw).2
  rewritten h := by
    obtain ⟨w, hw, rfl⟩ := map_eq_ok_iff.mp h
    obtain ⟨hdigits, hnumber⟩ := toWord_eq_ok_iff.mp hw
    rw [hword, ← ofWord_number letters hdigits, ← hnumber, UInt32.ofNat_toNat]
  reread a := map_eq_ok_iff.mpr ⟨word a, toWord_ofWord letters (word a), hmake a⟩
  refused s e := by
    rw [map_eq_error_iff, toWord_eq_error_iff]

/-- **Identifiers are read from eight digits in either case and refused for the first cause that
applies otherwise; sessions are written in lower case and devices in upper case, and what is
written is read again.** -/
theorem identifiers_written_in_hex :
    WrittenInHex .lower SessionId.word SessionId.hex SessionId.ofHex ∧
      WrittenInHex .upper DeviceId.word DeviceId.hex DeviceId.ofHex :=
  ⟨writtenInHex .lower (fun _ => rfl) (fun _ => rfl),
    writtenInHex .upper (fun _ => rfl) (fun _ => rfl)⟩

example : SessionId.ofHex "DEADbeef" = .ok ⟨3735928559⟩ := by decide

-- one character, two bytes, and the first of them is what the refusal names
example : SessionId.ofHex "DEADb\u00e4f" = .error (.notDigit 195 5) := by decide

end Logbook
