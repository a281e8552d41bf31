import Logbook.Text.Hex

/-!
# Refused values

Data that a device sends never fails: what is late, doubled or missing is absorbed. A value is
refused only where it is built, and there are three causes.

- `Refusal`: the causes.
- `Refusal.message`: the causes in words.
-/

namespace Logbook

/-- Why a value is refused when it is built. -/
inductive Refusal
  /-- A tolerance of no ticks, under which every transfer would have stalled on arrival. -/
  | zeroTolerance
  /-- A text that does not spell an identifier. -/
  | identifier (cause : Text.Hex.Error)
  /-- The unset mark where a position is needed. -/
  | unsetPosition
deriving DecidableEq

/-- The cause in words. -/
def Refusal.message : Refusal → String
  | .zeroTolerance =>
    "invalid configuration: stale_threshold must be at least one cursor tick"
  | .identifier cause => s!"invalid identifier: {cause.message}"
  | .unsetPosition => "sequence number is the unset sentinel"

end Logbook
