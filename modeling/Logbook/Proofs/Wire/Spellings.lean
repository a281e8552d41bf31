import Logbook.Proofs.Wire.RoundTrip

/-!
# The ways to spell a value

What the writer makes of a value is not the only way to spell it. A record comes as an object or as
a list of its fields in their order, a state without fields as its name or as an object, a payload
as bytes or as a text, and the nanoseconds of a period may carry into its seconds. Whatever is
spelled in another way reads as if it were spelled in the writer's.

- `Wire.Listed`: a list spells a record; `Wire.listed_of_named`: every record that is read field by
  field is spelled by lists.
- `Wire.read_period_eq_ok_iff`: parts spell the period that is as long as they are together.
- `Wire.Spellings`, `Wire.spellings`: all other ways to spell something.
-/

namespace Logbook.Wire

variable {α : Type} [Codec α] {names : List String}

/-! ## Records -/

/-- A list spells a record whose fields have these names. -/
structure Listed (α : Type) [Codec α] (names : List String) : Prop where
  /-- It has the fields in their order. -/
  read_list (items : List Value) (h : items.length = names.length) :
    (read (.list items) : Except ReadError α) = read (.object (names.zip items))
  /-- It has all of them, and nothing else. -/
  refused (items : List Value) (h : items.length ≠ names.length) :
    (read (.list items) : Except ReadError α) = .error .malformed

/-- Every record that is read field by field is spelled by lists. -/
theorem listed_of_named {f : List (String × Value) → Except ReadError α}
    (hread : ∀ v : Value, read v = v.named names >>= f) : Listed α names where
  read_list items h := by
    have hnamed : (Value.list items).named names = .ok (names.zip items) := if_pos h
    rw [hread, hread, hnamed]
    rfl
  refused items h := by
    have hnamed : (Value.list items).named names = .error .malformed := if_neg h
    rw [hread, hnamed]
    rfl

/-! ## Parts of a period -/

/-- Seconds and nanoseconds spell the period that is as long as they are together, if there is
one. -/
theorem read_period_eq_ok_iff (seconds : UInt64) (nanos : UInt32) (p : Period) :
    read (.object [("secs", write seconds), ("nanos", write nanos)]) = .ok p ↔
      p.seconds.toNat * 1000000000 + p.nanos = seconds.toNat * 1000000000 + nanos.toNat := by
  rw [read_period rfl, required_of_lookup (a := seconds) rfl (readsBack_word64 seconds),
    required_of_lookup (a := nanos) rfl (readsBack_word32 nanos), ← Period.ofParts?_eq_some]
  dsimp only [bind, Except.bind]
  cases Period.ofParts? seconds.toNat nanos.toNat with
  | none => exact iff_of_false (fun h => nomatch h) (fun h => nomatch h)
  | some q =>
    rw [Option.some_inj]
    exact ⟨Except.ok.inj, congrArg Except.ok⟩

/-! ## All ways -/

/-- The ways to spell something that are not the writer's. -/
structure Spellings : Prop where
  info : Listed SessionInfo ["id", "sample_period"]
  period : Listed Period ["secs", "nanos"]
  span : Listed Span ["min", "max"]
  record : Listed Record ["sequence", "payload"]
  placed : Listed Placed ["session_id", "timestamp_ms", "point"]
  progress : Listed Progress ["transferred", "expected", "requested"]
  status : Listed Status ["session_id", "min_seq", "max_seq", "record_count"]
  /-- The name of a state is short for an object with that name. -/
  name (name : String) :
    (read (.text name) : Except ReadError UploadState) = read (.object [(name, .null)])
  /-- A text spells the bytes that it is stored in. -/
  text (s : String) :
    (read (.text s) : Except ReadError Payload) = read (.list ((Text.utf8 s).map write))
  /-- Nanoseconds carry. -/
  parts (seconds : UInt64) (nanos : UInt32) (p : Period) :
    read (.object [("secs", write seconds), ("nanos", write nanos)]) = .ok p ↔
      p.seconds.toNat * 1000000000 + p.nanos = seconds.toNat * 1000000000 + nanos.toNat

/-- **Whatever is spelled in another way reads as if it were spelled in the writer's.** -/
theorem spellings : Spellings where
  info := listed_of_named fun _ => rfl
  period := listed_of_named fun _ => rfl
  span := listed_of_named fun _ => rfl
  record := listed_of_named fun _ => rfl
  placed := listed_of_named fun _ => rfl
  progress := listed_of_named fun _ => rfl
  status := listed_of_named fun _ => rfl
  name _ := rfl
  text s := (readsBack_payload (Text.utf8 s)).symm
  parts := read_period_eq_ok_iff

/-- A list spells a session, and its nanoseconds carry. -/
example : read (.list [.int 7, .list [.int 4, .int 1000000000]]) =
    .ok (⟨⟨7⟩, .ofSeconds 5⟩ : SessionInfo) := rfl

end Logbook.Wire
