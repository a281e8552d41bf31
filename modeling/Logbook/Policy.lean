import Logbook.Counter
import Logbook.Refusal

/-!
# Policies

- `Tolerance`: how many cursor records may come without any bulk record before a transfer
  counts as stalled. It is at least one.
- `Policy`: what a reconciler is set up with.
-/

namespace Logbook

/-- How many ticks of the cursor channel may pass without a bulk record. -/
structure Tolerance where
  ticks : Counter
  ticks_ne_zero : ticks ≠ 0
deriving DecidableEq

namespace Tolerance

/-- The tolerance of so many ticks, which must be at least one. -/
def ofTicks (ticks : Counter) : Except Refusal Tolerance :=
  if h : ticks ≠ 0 then .ok ⟨ticks, h⟩ else .error .zeroTolerance

/-- The usual tolerance. -/
def standard : Tolerance := ⟨10, by decide⟩

end Tolerance

/-- What a reconciler is set up with. -/
structure Policy where
  /-- The tolerance of every session. -/
  tolerance : Tolerance
  /-- Holes that show after a transfer are asked for again. -/
  backfillOnGap : Bool
deriving DecidableEq

namespace Policy

/-- The usual policy. -/
def standard : Policy := ⟨.standard, true⟩

/-- The policy with a tolerance of so many ticks. -/
def ofTicks (ticks : Counter) (backfillOnGap : Bool) : Except Refusal Policy := do
  return ⟨← Tolerance.ofTicks ticks, backfillOnGap⟩

end Policy

end Logbook
