import Logbook.Policy
import Logbook.Progress
import Logbook.Store.Gap

/-!
# Sessions

A session is the log of one device from one power-on to the next. It merges the records of both
channels into one store and keeps the accounts of the request that is out on the bulk channel.

- `Session`: the store, the anchor in time, what each channel is expected to bring next, and the
  accounts of the outstanding request.
- `Session.begin`: a session without records.
- `Session.status`: its snapshot.
- `Session.anchor`, `Session.timeOf?`: how positions are placed in time.
-/

namespace Logbook

/-- The log of one continuous session of a device. -/
structure Session where
  /-- What the device said about the session. -/
  info : SessionInfo
  tolerance : Tolerance
  /-- When position zero was taken, once that is known. -/
  start : Option Instant
  store : Store
  /-- Where the bulk channel is expected to go on, while a request is out. -/
  nextBulk : Option Position
  /-- Which position the cursor channel is expected to bring, if there is an expectation. -/
  nextCursor : Option Position
  /-- The accounts of the last request. -/
  progress : Progress
  /-- How many more ticks of the cursor channel the bulk channel may stay silent. -/
  patience : Counter
deriving DecidableEq

namespace Session

/-- The session as it is when a device opens it. -/
def begin (info : SessionInfo) (tolerance : Tolerance) : Session where
  info := info
  tolerance := tolerance
  start := none
  store := .empty
  nextBulk := none
  nextCursor := none
  progress := .initial
  patience := tolerance.ticks

/-- The session's id. -/
def id (s : Session) : SessionId := s.info.id

/-- What the session holds. -/
def status (s : Session) : Status where
  session := s.id
  lowest := s.store.lowest?
  highest := s.store.highest?
  count := UInt64.ofNat s.store.size

/-- The bulk channel has been silent for as long as is tolerated. -/
def isStalled (s : Session) : Bool := s.patience = 0

/-! ### Places in time -/

/-- How long after position zero a position is taken, in milliseconds, at most what an instant
can hold. -/
def elapsed (s : Session) (p : Position) : Int :=
  min (p.toNat * s.info.period.millis : Int) 9223372036854775807

/-- Fixes the start of the session, given that position `p` is taken at `now`. It is fixed once
for all, and never from the unset mark. -/
def anchor (s : Session) (p : Position) (now : Instant) : Session :=
  if s.start.isSome || !decide p.IsSet then s
  else { s with start := some (.clamp (now.millis - s.elapsed p)) }

theorem info_anchor (s : Session) (p : Position) (now : Instant) :
    (s.anchor p now).info = s.info := by
  unfold anchor
  split <;> rfl

/-- When a position is taken, if the session's start is known. -/
def timeOf? (s : Session) (p : Position) : Option Instant :=
  s.start.map fun start => .clamp (start.millis + s.elapsed p)

/-- The records of the session, placed in its history. -/
def history (s : Session) : List Placed :=
  s.store.records.map fun r => ⟨s.id, s.timeOf? r.position, r⟩

end Session

end Logbook
