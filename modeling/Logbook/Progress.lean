import Logbook.Counter
import Logbook.Identity
import Logbook.Span

/-!
# Snapshots of a session

Two snapshots say how far a session has come. Neither is kept anywhere; each answer makes a new
one.

- `Progress`: the accounts of the outstanding request, with `Progress.isComplete` and
  `Progress.percent`.
- `Status`: the bounds and the number of the held records, with `Status.span?` and
  `Status.dropped`.
-/

namespace Logbook

/-- The accounts of a request. -/
@[ext]
structure Progress where
  /-- New records since the request was made. -/
  transferred : Counter
  /-- Records of the requested span that were missing when it was made. -/
  expected : Counter
  /-- The size of the requested span. -/
  requested : Counter
deriving DecidableEq

namespace Progress

/-- The accounts before any request. -/
def initial : Progress := ⟨0, 0, 0⟩

/-- As many records have come as were missing. -/
def isComplete (p : Progress) : Bool := p.expected ≤ p.transferred

/-- How much of what was missing has come, in whole percent. The product is taken in 64 bits
and the quotient cut to eight. -/
def percent (p : Progress) : UInt8 :=
  if p.expected = 0 then 100
  else ((min p.transferred p.expected).toUInt64 * 100 / p.expected.toUInt64).toUInt8

end Progress

/-- What a session holds. -/
@[ext]
structure Status where
  session : SessionId
  /-- The lowest held position. -/
  lowest : Option Position
  /-- The highest held position. -/
  highest : Option Position
  /-- How many records are held. -/
  count : UInt64
deriving DecidableEq

namespace Status

/-- From the lowest to the highest held position. -/
def span? (s : Status) : Option Span :=
  match s.lowest, s.highest with
  | some lowest, some highest => Span.ofBounds? lowest highest
  | _, _ => none

/-- How many positions of the span have no record. The count of records is taken modulo 2^32,
the number of positions. -/
def dropped (s : Status) : Nat :=
  match s.span? with
  | some span => span.size - s.count.toNat % 4294967296
  | none => 0

/-- Some position of the span has no record. -/
def hasDropped (s : Status) : Bool := 0 < s.dropped

end Status

end Logbook
