import Logbook.Text.Hex
import Mathlib.Data.Nat.Digits.Defs

/-!
# What hexadecimal text says

A text is read byte by byte, and a character beyond ASCII has no byte that is a digit. So a text
spells a word just when it consists of eight digits, and the word is the number that they are in
base sixteen; any other text is refused, for the first of three causes that applies.

- `utf8_eq`: the bytes of a text are those that it is stored in.
- `Hex.value`, `Hex.number`: what a digit and what a text of digits stand for.
- `Hex.forall_isDigit_iff`: a text whose bytes are digits has nothing but digits for characters.
- `Hex.spelled`: the bytes that digits spell; `Hex.decodePairs_of_paired`: they are read.
- `Hex.decodePairs_of_not_digit`: the first byte that is no digit is named, with its place.
- `Hex.flatMap_digitsOf_spelled`: what was read is written in the same digits.
- `Hex.Reads`: what comes of a text; `Hex.toWord_eq_iff`: that comes of it and nothing else.
-/

namespace Logbook.Text

variable {c : Char} {cs : List Char} {b : UInt8} {bs : List UInt8} {s : String}

/-! ## Bytes -/

/-- The bytes of a text are those that it is stored in. -/
theorem utf8_eq (s : String) : utf8 s = s.toByteArray.data.toList := by
  rw [← String.utf8Encode_toList, List.utf8Encode, List.data_toByteArray]
  rfl

theorem length_utf8 (s : String) : (utf8 s).length = s.utf8ByteSize := by
  rw [utf8_eq]
  exact Array.length_toList

/-- A character of ASCII is one byte, which has its number. -/
theorem utf8EncodeChar_of_ascii (h : c.toNat < 128) : String.utf8EncodeChar c = [c.toUInt8] := by
  apply String.utf8EncodeChar_eq_singleton
  rw [Char.utf8Size_eq_one_iff, UInt32.le_iff_toNat_le]
  exact Nat.le_of_lt_succ h

/-- Any other character has no byte that is the number of a character of ASCII. -/
theorem le_of_mem_utf8EncodeChar (h : 128 ≤ c.toNat) (hb : b ∈ String.utf8EncodeChar c) :
    128 ≤ b.toNat := by
  have hbeyond : ¬ c.val.toNat ≤ 127 := Nat.not_le.mpr h
  revert hb
  unfold String.utf8EncodeChar
  simp only [hbeyond, if_false]
  split
  · simp only [List.mem_cons, List.not_mem_nil, or_false]
    rintro (rfl | rfl) <;> rw [UInt8.toNat_ofNat'] <;> omega
  · split
    · simp only [List.mem_cons, List.not_mem_nil, or_false]
      rintro (rfl | rfl | rfl) <;> rw [UInt8.toNat_ofNat'] <;> omega
    · simp only [List.mem_cons, List.not_mem_nil, or_false]
      rintro (rfl | rfl | rfl | rfl) <;> rw [UInt8.toNat_ofNat'] <;> omega

/-- Four bytes are those of the word that they spell. -/
theorem bigEndian_ofBigEndian (h : bs.length = 4) :
    bigEndian (UInt32.ofNat (ofBigEndian bs)) = bs := by
  obtain ⟨a, b, c, d, rfl⟩ : ∃ a b c d, bs = [a, b, c, d] := by
    match bs, h with
    | [a, b, c, d], _ => exact ⟨a, b, c, d, rfl⟩
  have ha := a.toNat_lt
  have hb := b.toNat_lt
  have hc := c.toNat_lt
  have hd := d.toNat_lt
  have hword : (UInt32.ofNat (ofBigEndian [a, b, c, d])).toNat =
      ((a.toNat * 256 + b.toNat) * 256 + c.toNat) * 256 + d.toNat := by
    rw [UInt32.toNat_ofNat']
    simp only [ofBigEndian, List.foldl_cons, List.foldl_nil]
    omega
  unfold bigEndian
  rw [hword]
  simp only [List.cons.injEq, ← UInt8.toNat_inj, UInt8.toNat_ofNat', and_true]
  omega

namespace Hex

/-! ## Digits -/

/-- The sixteen digits in their order. -/
def digits : List Char :=
  ['0', '1', '2', '3', '4', '5', '6', '7', '8', '9', 'a', 'b', 'c', 'd', 'e', 'f']

/-- What a digit stands for, in either case. -/
def value (c : Char) : ℕ := digits.idxOf c.toLower

/-- The byte is the number of a digit, in either case. -/
def isDigit (b : UInt8) : Bool := (Char.ofUInt8 b).isHexDigit

/-- A text in the letters asked for. -/
def Letters.recase : Letters → Char → Char
  | .lower => Char.toLower
  | .upper => Char.toUpper

/-- What is checked of each byte is true of every byte. -/
theorem forall_byte {P : UInt8 → Prop} (h : ∀ n < 256, P (UInt8.ofNat n)) (b : UInt8) : P b := by
  have hb := h b.toNat b.toNat_lt
  rwa [UInt8.ofNat_toNat] at hb

/-- What is checked of each character of ASCII is true of every one. -/
theorem forall_ascii {P : Char → Prop} (h : ∀ n < 128, P (Char.ofNat n)) (hc : c.toNat < 128) :
    P c := by
  have hchar := h c.toNat hc
  rwa [Char.ofNat_toNat] at hchar

theorem digitValue?_eq (b : UInt8) :
    digitValue? b = if isDigit b then some (value (Char.ofUInt8 b)) else none := by
  revert b
  exact forall_byte (by decide +kernel)

theorem digitAt_of_digit (h : isDigit b) (index : ℕ) :
    digitAt index b = .ok (value (Char.ofUInt8 b)) := by
  unfold digitAt
  rw [digitValue?_eq, if_pos h]

theorem digitAt_of_not_digit (h : isDigit b = false) (index : ℕ) :
    digitAt index b = .error (.notDigit b index) := by
  unfold digitAt
  rw [digitValue?_eq, h]
  rfl

/-- All digits are characters of ASCII. -/
theorem lt_of_isHexDigit (h : c.isHexDigit) : c.toNat < 128 := by
  simp only [Char.isHexDigit, Char.isDigit, Bool.or_eq_true, Bool.and_eq_true, decide_eq_true_eq,
    ge_iff_le, UInt32.le_iff_toNat_le] at h
  show c.val.toNat < 128
  rcases h with (⟨-, h⟩ | ⟨-, h⟩) | ⟨-, h⟩
  all_goals exact Nat.lt_of_le_of_lt h (by decide)

/-- A digit stands for a number below sixteen, and is written for it again. -/
theorem digit_value (h : c.isHexDigit) :
    value c < 16 ∧ ∀ letters, digit letters (value c) = letters.recase c := by
  have hchecked : c.isHexDigit → value c < 16 ∧ digit .lower (value c) = c.toLower ∧
      digit .upper (value c) = c.toUpper :=
    forall_ascii (P := fun c => c.isHexDigit → value c < 16 ∧ digit .lower (value c) = c.toLower ∧
      digit .upper (value c) = c.toUpper) (by decide +kernel) (lt_of_isHexDigit h)
  obtain ⟨hlt, hlower, hupper⟩ := hchecked h
  refine ⟨hlt, fun letters => ?_⟩
  cases letters with
  | lower => exact hlower
  | upper => exact hupper

/-- What is written for a number below sixteen is a digit that stands for it. -/
theorem value_digit (letters : Letters) {n : ℕ} (h : n < 16) :
    (digit letters n).isHexDigit ∧ value (digit letters n) = n := by
  revert n
  cases letters <;> decide +kernel

/-! ## Digits as bytes -/

/-- The byte of a character of ASCII is its number. -/
theorem ofUInt8_toUInt8 (h : c.toNat < 128) : Char.ofUInt8 c.toUInt8 = c :=
  forall_ascii (P := fun c => Char.ofUInt8 c.toUInt8 = c) (by decide +kernel) h

theorem isDigit_toUInt8 (h : c.isHexDigit) : isDigit c.toUInt8 := by
  unfold isDigit
  rw [ofUInt8_toUInt8 (lt_of_isHexDigit h)]
  exact h

/-- The byte of a digit is below all bytes of characters beyond ASCII. -/
theorem lt_of_isDigit (h : isDigit b) : b.toNat < 128 := lt_of_isHexDigit h

/-- A character has nothing but digits for bytes just when it is a digit. -/
theorem forall_isDigit_char_iff (c : Char) :
    (∀ b ∈ String.utf8EncodeChar c, isDigit b) ↔ c.isHexDigit := by
  constructor
  · intro h
    by_cases hascii : c.toNat < 128
    · rw [utf8EncodeChar_of_ascii hascii, List.forall_mem_singleton, isDigit,
        ofUInt8_toUInt8 hascii] at h
      exact h
    · -- the first byte is no digit
      obtain ⟨b, hb⟩ := List.exists_mem_of_ne_nil _ (String.utf8EncodeChar_ne_nil (c := c))
      have hle := le_of_mem_utf8EncodeChar (Nat.not_lt.mp hascii) hb
      exact absurd (lt_of_isDigit (h b hb)) (Nat.not_lt.mpr hle)
  · intro h
    rw [utf8EncodeChar_of_ascii (lt_of_isHexDigit h), List.forall_mem_singleton]
    exact isDigit_toUInt8 h

/-- **A text has nothing but digits for bytes just when it has nothing but digits for
characters.** -/
theorem forall_isDigit_iff (s : String) :
    (∀ b ∈ utf8 s, isDigit b) ↔ ∀ c ∈ s.toList, c.isHexDigit := by
  unfold utf8
  rw [List.forall_mem_flatMap]
  exact forall₂_congr fun c _ => forall_isDigit_char_iff c

/-- Digits are one byte each. -/
theorem flatMap_utf8EncodeChar_of_digits (h : ∀ c ∈ cs, c.isHexDigit) :
    cs.flatMap String.utf8EncodeChar = cs.map Char.toUInt8 := by
  induction cs with
  | nil => rfl
  | cons c rest ih =>
    obtain ⟨hc, hrest⟩ := List.forall_mem_cons.mp h
    rw [List.flatMap_cons, utf8EncodeChar_of_ascii (lt_of_isHexDigit hc), ih hrest]
    rfl

/-! ## What digits spell -/

/-- Digits in pairs. -/
inductive Paired : List Char → Prop
  | nil : Paired []
  | cons {a b : Char} {rest : List Char} (ha : a.isHexDigit) (hb : b.isHexDigit)
      (hrest : Paired rest) : Paired (a :: b :: rest)

/-- Digits that are even in number come in pairs. -/
theorem paired_of_digits {cs : List Char} (hdigits : ∀ c ∈ cs, c.isHexDigit)
    (heven : cs.length % 2 = 0) : Paired cs := by
  match cs, hdigits, heven with
  | [], _, _ => exact .nil
  | a :: b :: rest, hdigits, heven =>
    obtain ⟨ha, hb, hrest⟩ : a.isHexDigit ∧ b.isHexDigit ∧ ∀ c ∈ rest, c.isHexDigit := by
      simpa using hdigits
    have heven' : rest.length % 2 = 0 := by
      simp only [List.length_cons] at heven
      omega
    exact .cons ha hb (paired_of_digits hrest heven')

theorem Paired.digits (h : Paired cs) : ∀ c ∈ cs, c.isHexDigit := by
  induction h with
  | nil => exact List.forall_mem_nil _
  | cons ha hb _ ih => exact List.forall_mem_cons.mpr ⟨ha, List.forall_mem_cons.mpr ⟨hb, ih⟩⟩

/-- The bytes that digits spell, two by two. -/
def spelled : List Char → List UInt8
  | a :: b :: rest => UInt8.ofNat (value a * 16 + value b) :: spelled rest
  | _ => []

/-- Two digits fill a byte. -/
theorem toNat_byte {a b : Char} (ha : a.isHexDigit) (hb : b.isHexDigit) :
    (UInt8.ofNat (value a * 16 + value b)).toNat = value a * 16 + value b := by
  have hlta := (digit_value ha).1
  have hltb := (digit_value hb).1
  rw [UInt8.toNat_ofNat']
  omega

/-- Digits in pairs are read. -/
theorem decodePairs_of_paired (h : Paired cs) (index : ℕ) :
    decodePairs index (cs.map Char.toUInt8) = .ok (spelled cs) := by
  induction h generalizing index with
  | nil => rfl
  | cons ha hb _ ih =>
    rw [List.map_cons, List.map_cons, decodePairs, digitAt_of_digit (isDigit_toUInt8 ha),
      digitAt_of_digit (isDigit_toUInt8 hb), ih, ofUInt8_toUInt8 (lt_of_isHexDigit ha),
      ofUInt8_toUInt8 (lt_of_isHexDigit hb)]
    rfl

/-- The first byte that is no digit is named, with its place. -/
theorem decodePairs_of_not_digit {before rest : List UInt8} (hbefore : ∀ b ∈ before, isDigit b)
    (hb : isDigit b = false) (heven : (before ++ b :: rest).length % 2 = 0) (index : ℕ) :
    decodePairs index (before ++ b :: rest) = .error (.notDigit b (index + before.length)) := by
  match before, rest with
  | [], [] => cases heven
  | [], low :: rest =>
    rw [List.nil_append, decodePairs, digitAt_of_not_digit hb]
    rfl
  | [high], rest =>
    rw [List.singleton_append, decodePairs, digitAt_of_digit (hbefore high List.mem_cons_self),
      digitAt_of_not_digit hb]
    rfl
  | high :: low :: before, rest =>
    obtain ⟨hhigh, hlow, hbefore⟩ :
        isDigit high ∧ isDigit low ∧ ∀ b ∈ before, isDigit b := by
      simpa using hbefore
    have heven' : (before ++ b :: rest).length % 2 = 0 := by
      simp only [List.cons_append, List.length_cons] at heven
      omega
    have hrest := decodePairs_of_not_digit hbefore hb heven' (index + 2)
    rw [List.cons_append, List.cons_append, decodePairs, digitAt_of_digit hhigh,
      digitAt_of_digit hlow, hrest]
    simp only [List.length_cons]
    rw [show index + 2 + before.length = index + (before.length + 1 + 1) by omega]
    rfl

/-- The digits of a byte, the high half first. -/
def digitsOf (letters : Letters) (b : UInt8) : List Char :=
  [digit letters (b.toNat / 16), digit letters (b.toNat % 16)]

/-- What was read is written in the same digits, in the letters asked for. -/
theorem flatMap_digitsOf_spelled (letters : Letters) (h : Paired cs) :
    (spelled cs).flatMap (digitsOf letters) = cs.map letters.recase := by
  induction h with
  | nil => rfl
  | @cons a b rest ha hb _ ih =>
    have hltb := (digit_value hb).1
    have hhigh : (value a * 16 + value b) / 16 = value a := by omega
    have hlow : (value a * 16 + value b) % 16 = value b := by omega
    rw [spelled, List.flatMap_cons, ih, digitsOf, toNat_byte ha hb, hhigh, hlow,
      (digit_value ha).2, (digit_value hb).2]
    rfl

/-- What is written for bytes comes in pairs and spells them. -/
theorem spelled_flatMap_digitsOf (letters : Letters) (bs : List UInt8) :
    Paired (bs.flatMap (digitsOf letters)) ∧ spelled (bs.flatMap (digitsOf letters)) = bs := by
  induction bs with
  | nil => exact ⟨.nil, rfl⟩
  | cons b bs ih =>
    have hb := b.toNat_lt
    obtain ⟨hhigh, hhighvalue⟩ := value_digit letters (by omega : b.toNat / 16 < 16)
    obtain ⟨hlow, hlowvalue⟩ := value_digit letters (by omega : b.toNat % 16 < 16)
    rw [List.flatMap_cons, digitsOf, List.cons_append, List.singleton_append]
    refine ⟨.cons hhigh hlow ih.1, ?_⟩
    rw [spelled, ih.2, hhighvalue, hlowvalue, Nat.div_add_mod', UInt8.ofNat_toNat]

theorem length_spelled (h : Paired cs) : (spelled cs).length = cs.length / 2 := by
  induction h with
  | nil => rfl
  | cons _ _ _ ih =>
    rw [spelled, List.length_cons, ih]
    simp only [List.length_cons]
    omega

/-- The number that digits are in base sixteen, the highest digit first. -/
def number (cs : List Char) : ℕ := Nat.ofDigits 16 (cs.reverse.map value)

theorem number_eq_foldl (cs : List Char) :
    number cs = cs.foldl (fun n c => value c + 16 * n) 0 := by
  rw [number, Nat.ofDigits_eq_foldr, List.foldr_map, List.foldr_reverse]
  rfl

/-- The bytes that digits spell are the number that the digits are. -/
theorem ofBigEndian_spelled (h : Paired cs) : ofBigEndian (spelled cs) = number cs := by
  rw [number_eq_foldl, ofBigEndian]
  -- both sides go on from the number so far
  generalize 0 = n
  induction h generalizing n with
  | nil => rfl
  | @cons a b rest ha hb _ ih =>
    have hbyte : n * 256 + (UInt8.ofNat (value a * 16 + value b)).toNat =
        value b + 16 * (value a + 16 * n) := by
      rw [toNat_byte ha hb]
      omega
    rw [spelled, List.foldl_cons, List.foldl_cons, List.foldl_cons, hbyte, ih]

/-! ## Words -/

/-- The text consists of eight digits, in either case. -/
def EightDigits (s : String) : Prop := s.length = 8 ∧ ∀ c ∈ s.toList, c.isHexDigit

/-- Why a text is refused: of three causes the first that applies. -/
inductive Refused (s : String) : Error → Prop
  | oddLength (hodd : s.utf8ByteSize % 2 = 1) : Refused s .oddLength
  | notDigit {before rest : List UInt8} {b : UInt8} (heven : s.utf8ByteSize % 2 = 0)
      (hbytes : s.toByteArray.data.toList = before ++ b :: rest)
      (hbefore : ∀ b ∈ before, isDigit b) (hb : isDigit b = false) :
      Refused s (.notDigit b before.length)
  | wrongSize (heven : s.utf8ByteSize % 2 = 0) (hdigits : ∀ c ∈ s.toList, c.isHexDigit)
      (hsize : s.utf8ByteSize / 2 ≠ 4) : Refused s (.wrongSize (s.utf8ByteSize / 2))

/-- What comes of a text: it is the number of its eight digits, or it is refused. -/
inductive Reads (s : String) : Except Error UInt32 → Prop
  | word (h : EightDigits s) : Reads s (.ok (UInt32.ofNat (number s.toList)))
  | refused {e : Error} (h : Refused s e) : Reads s (.error e)

/-- A text of digits has as many bytes as digits. -/
theorem utf8ByteSize_of_digits (h : ∀ c ∈ s.toList, c.isHexDigit) : s.utf8ByteSize = s.length := by
  rw [← length_utf8, utf8, flatMap_utf8EncodeChar_of_digits h, List.length_map, String.length_toList]

theorem decode_of_odd (h : s.utf8ByteSize % 2 = 1) : decode s = .error .oddLength := by
  rw [← length_utf8] at h
  exact if_pos h

theorem decode_of_even (h : s.utf8ByteSize % 2 = 0) : decode s = decodePairs 0 (utf8 s) := by
  rw [← length_utf8] at h
  exact if_neg (by omega)

/-- Digits in pairs spell a word if there are eight of them. -/
theorem toWord_of_digits (hdigits : ∀ c ∈ s.toList, c.isHexDigit) (heven : s.length % 2 = 0) :
    toWord s = if s.length / 2 = 4 then .ok (UInt32.ofNat (number s.toList))
      else .error (.wrongSize (s.length / 2)) := by
  have hpaired : Paired s.toList := paired_of_digits hdigits (by rwa [String.length_toList])
  have hbytes : utf8 s = s.toList.map Char.toUInt8 := flatMap_utf8EncodeChar_of_digits hdigits
  have hdecode : decode s = .ok (spelled s.toList) := by
    rw [decode_of_even (by rwa [utf8ByteSize_of_digits hdigits]), hbytes,
      decodePairs_of_paired hpaired]
  have hsize : (spelled s.toList).length = s.length / 2 := by
    rw [length_spelled hpaired, String.length_toList]
  unfold toWord
  rw [hdecode, ← hsize, ← ofBigEndian_spelled hpaired]
  rfl

theorem toWord_of_eightDigits (h : EightDigits s) :
    toWord s = .ok (UInt32.ofNat (number s.toList)) := by
  rw [toWord_of_digits h.2 (by rw [h.1]), h.1]
  rfl

/-- What comes of a text is what is read. -/
theorem Reads.toWord_eq {o : Except Error UInt32} (h : Reads s o) : toWord s = o := by
  cases h with
  | word h => exact toWord_of_eightDigits h
  | refused h =>
    cases h with
    | oddLength hodd =>
      rw [toWord, decode_of_odd hodd]
      rfl
    | notDigit heven hbytes hbefore hb =>
      rw [← utf8_eq] at hbytes
      have hrefused := decodePairs_of_not_digit hbefore hb
        (by rw [← hbytes, length_utf8, heven]) 0
      rw [Nat.zero_add] at hrefused
      rw [toWord, decode_of_even heven, hbytes, hrefused]
      rfl
    | wrongSize heven hdigits hsize =>
      rw [utf8ByteSize_of_digits hdigits] at heven hsize ⊢
      rw [toWord_of_digits hdigits heven, if_neg hsize]

/-- Bytes that are not all digits have a first one that is none. -/
theorem exists_first_not_digit (h : ¬ ∀ b ∈ bs, isDigit b) :
    ∃ before b rest, bs = before ++ b :: rest ∧ (∀ b ∈ before, isDigit b) ∧ isDigit b = false := by
  have hsome : (bs.find? fun b => !isDigit b).isSome := by
    rw [List.find?_isSome]
    simpa using h
  obtain ⟨b, hb⟩ := Option.isSome_iff_exists.mp hsome
  obtain ⟨hnot, before, rest, hbytes, hbefore⟩ := List.find?_eq_some_iff_append.mp hb
  exact ⟨before, b, rest, hbytes, by simpa using hbefore, by simpa using hnot⟩

/-- Something comes of every text. -/
theorem exists_reads (s : String) : ∃ o, Reads s o := by
  by_cases hodd : s.utf8ByteSize % 2 = 1
  · exact ⟨_, .refused (.oddLength hodd)⟩
  have heven : s.utf8ByteSize % 2 = 0 := by omega
  by_cases hdigits : ∀ c ∈ s.toList, c.isHexDigit
  · by_cases hsize : s.utf8ByteSize / 2 = 4
    · refine ⟨_, .word ⟨?_, hdigits⟩⟩
      rw [← utf8ByteSize_of_digits hdigits]
      omega
    · exact ⟨_, .refused (.wrongSize heven hdigits hsize)⟩
  · rw [← forall_isDigit_iff, utf8_eq] at hdigits
    obtain ⟨before, b, rest, hbytes, hbefore, hb⟩ := exists_first_not_digit hdigits
    exact ⟨_, .refused (.notDigit heven hbytes hbefore hb)⟩

/-- **What is read is what comes of a text, and nothing else.** -/
theorem toWord_eq_iff {o : Except Error UInt32} : toWord s = o ↔ Reads s o := by
  refine ⟨fun h => ?_, Reads.toWord_eq⟩
  obtain ⟨o', ho'⟩ := exists_reads s
  rwa [← h, ho'.toWord_eq]

/-- Eight digits fit a word. -/
theorem number_lt (h : EightDigits s) : number s.toList < 2 ^ 32 := by
  have hvalues : ∀ n ∈ s.toList.reverse.map value, n < 16 := by
    intro n hn
    obtain ⟨c, hc, rfl⟩ := List.mem_map.mp hn
    exact (digit_value (h.2 c (List.mem_reverse.mp hc))).1
  have hlt := Nat.ofDigits_lt_base_pow_length (by decide) hvalues
  rw [List.length_map, List.length_reverse, String.length_toList, h.1] at hlt
  exact hlt

/-- A word is read from its eight digits only. -/
theorem toWord_eq_ok_iff {w : UInt32} :
    toWord s = .ok w ↔ EightDigits s ∧ w.toNat = number s.toList := by
  rw [toWord_eq_iff]
  constructor
  · rintro ⟨h⟩
    exact ⟨h, UInt32.toNat_ofNat_of_lt (number_lt h)⟩
  · rintro ⟨h, hw⟩
    have hread := Reads.word h
    rwa [← hw, UInt32.ofNat_toNat] at hread

/-- A text is refused for the first cause that applies. -/
theorem toWord_eq_error_iff {e : Error} : toWord s = .error e ↔ Refused s e := by
  rw [toWord_eq_iff]
  constructor
  · rintro (_ | h)
    exact h
  · exact Reads.refused

/-! ## Writing -/

/-- A text with the letters in the case asked for. -/
def Letters.recaseText : Letters → String → String
  | .lower => String.toLower
  | .upper => String.toUpper

theorem toList_recaseText (letters : Letters) (s : String) :
    (letters.recaseText s).toList = s.toList.map letters.recase := by
  cases letters <;> exact String.toList_map

theorem toList_ofWord (letters : Letters) (w : UInt32) :
    (ofWord letters w).toList = (bigEndian w).flatMap (digitsOf letters) := String.toList_ofList

/-- The word that eight digits spell is written in the same digits. -/
theorem ofWord_number (letters : Letters) (h : EightDigits s) :
    ofWord letters (UInt32.ofNat (number s.toList)) = letters.recaseText s := by
  have hpaired : Paired s.toList := paired_of_digits h.2 (by rw [String.length_toList, h.1])
  have hfour : (spelled s.toList).length = 4 := by
    rw [length_spelled hpaired, String.length_toList, h.1]
  rw [← String.toList_inj, toList_ofWord, toList_recaseText, ← ofBigEndian_spelled hpaired,
    bigEndian_ofBigEndian hfour, flatMap_digitsOf_spelled letters hpaired]

/-- A word is written in eight digits, which spell it. -/
theorem toWord_ofWord (letters : Letters) (w : UInt32) : toWord (ofWord letters w) = .ok w := by
  obtain ⟨hpaired, hspelled⟩ := spelled_flatMap_digitsOf letters (bigEndian w)
  rw [← toList_ofWord] at hpaired hspelled
  have hnumber : number (ofWord letters w).toList = w.toNat := by
    rw [← ofBigEndian_spelled hpaired, hspelled, ofBigEndian_bigEndian]
  have height : EightDigits (ofWord letters w) := by
    refine ⟨?_, hpaired.digits⟩
    rw [← String.length_toList, toList_ofWord]
    rfl
  rw [toWord_of_eightDigits height, hnumber, UInt32.ofNat_toNat]

end Hex

end Logbook.Text
