/-!
# Instants and sample periods

Records are placed in time in unix milliseconds. An instant is a signed 64-bit number of them,
and arithmetic that would leave this range stops at its end. A sample period is what a device
reports between two records: whole seconds and nanoseconds.

- `Instant`, `Instant.clamp`: an instant, and the nearest instant to any integer.
- `Period`, `Period.ofParts?`: a period, built from parts whose nanoseconds may carry.
- `Period.millis`: its whole milliseconds, at most what an instant can hold.
-/

namespace Logbook

/-- A point in time in unix milliseconds, within the signed 64-bit range. -/
@[ext]
structure Instant where
  /-- Milliseconds since the epoch. -/
  millis : Int
  ge_min : -9223372036854775808 ≤ millis
  le_max : millis ≤ 9223372036854775807
deriving DecidableEq

namespace Instant

/-- The beginning of unix time. -/
def epoch : Instant := ⟨0, by decide, by decide⟩

/-- The instant nearest to `t` milliseconds. -/
def clamp (t : Int) : Instant :=
  ⟨max (-9223372036854775808) (min t 9223372036854775807), by omega, by omega⟩

/-- The instant at exactly `t` milliseconds, if it is in range. -/
def ofInt? (t : Int) : Option Instant :=
  if h : -9223372036854775808 ≤ t ∧ t ≤ 9223372036854775807 then some ⟨t, h.1, h.2⟩ else none

/-- The instant, or the epoch if it lies before: what a clock that starts in 1970 reads. -/
def notBeforeEpoch (t : Instant) : Instant := if t.millis < 0 then epoch else t

theorem clamp_millis (t : Instant) : clamp t.millis = t := by
  have h₁ := t.ge_min
  have h₂ := t.le_max
  ext
  simp only [clamp]
  omega

end Instant

/-- The time between two records of a session. -/
@[ext]
structure Period where
  /-- Whole seconds. -/
  seconds : UInt64
  /-- Nanoseconds beyond the whole seconds. -/
  nanos : Nat
  nanos_lt : nanos < 1000000000
deriving DecidableEq

namespace Period

/-- A period of whole seconds. -/
def ofSeconds (s : UInt64) : Period := ⟨s, 0, by decide⟩

/-- A period from seconds and nanoseconds. Nanoseconds beyond a second carry over; there is no
period if the seconds then leave their 64 bits. -/
def ofParts? (seconds nanos : Nat) : Option Period :=
  if seconds + nanos / 1000000000 < 18446744073709551616 then
    some ⟨UInt64.ofNat (seconds + nanos / 1000000000), nanos % 1000000000,
      Nat.mod_lt _ (by decide)⟩
  else none

/-- A period from parts is as long as they are together. -/
theorem ofParts?_eq_some {seconds nanos : Nat} {p : Period} :
    ofParts? seconds nanos = some p ↔
      p.seconds.toNat * 1000000000 + p.nanos = seconds * 1000000000 + nanos := by
  have hnanos := p.nanos_lt
  have hseconds := p.seconds.toNat_lt
  unfold ofParts?
  split
  · next h =>
    rw [Option.some_inj, Period.ext_iff, ← UInt64.toNat_inj, UInt64.toNat_ofNat_of_lt' h]
    dsimp only
    omega
  · next h =>
    refine iff_of_false (Option.some_ne_none p).symm ?_
    omega

/-- The whole milliseconds of a period, at most what an instant can hold. -/
def millis (p : Period) : Nat :=
  min (p.seconds.toNat * 1000 + p.nanos / 1000000) 9223372036854775807

end Period

end Logbook
