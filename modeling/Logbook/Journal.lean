import Logbook.Session.Receive
import Logbook.Session.Request

/-!
# Journals

The journal of a device lists its sessions. Only the last one receives records; when the device
reports another session, the last one is closed and kept as it is, so that the history of the
device survives every restart.

- `Journal`: the closed sessions, oldest first, and the current one.
- `Journal.ensure`: the journal with a given session as the current one; `Journal.isIn_ensure` says
  that it is.
- `Journal.needed?`: the span to be asked for so that the journal holds what a device holds.
- `Journal.history`: every record, session by session.
-/

namespace Logbook

/-- The sessions of one device. -/
structure Journal where
  device : DeviceId
  /-- The tolerance of the sessions that will be opened. -/
  tolerance : Tolerance
  /-- The sessions that were superseded, oldest first. -/
  closed : List Session
  /-- The session that receives records. -/
  current : Option Session
deriving DecidableEq

namespace Journal

/-- The journal of a device that was never heard of. -/
def empty (device : DeviceId) (tolerance : Tolerance) : Journal := ⟨device, tolerance, [], none⟩

/-- All sessions, oldest first. -/
def sessions (j : Journal) : List Session := j.closed ++ j.current.toList

/-- The current session is the one with this id. -/
def isIn (j : Journal) (id : SessionId) : Bool := j.current.any fun s => s.id = id

/-- The journal with the given session as the current one. A session that was not the current one
is opened, anchored in time by the device's latest position. -/
def ensure (j : Journal) (info : SessionInfo) (latest : Position) (now : Instant) : Journal :=
  if j.isIn info.id then j
  else
    { j with
      closed := j.sessions
      current := some ((Session.begin info j.tolerance).anchor latest now) }

/-- What is to be asked for so that the current session holds all positions from `first` to
`last`. -/
def needed? (j : Journal) (first last : Position) : Option Span :=
  match j.current with
  | some s => Span.ofBounds? (s.store.resumeFrom first) last
  | none => Span.ofBounds? first last

/-- The journal with the given session as the current one, and what is then to be asked for. -/
def prepare (j : Journal) (first last : Position) (info : SessionInfo) (now : Instant) :
    Journal × Option Span :=
  let j := j.ensure info last now
  (j, j.needed? first last)

/-! ### The current session -/

/-- The journal with its current session changed. -/
def update (j : Journal) (f : Session → Session) : Journal :=
  { j with current := j.current.map f }

/-- The journal with a new request out in its current session. -/
def request (j : Journal) (f : Session → Except RequestError Session) :
    Except RequestError Journal :=
  match j.current with
  | some s => do return { j with current := some (← f s) }
  | none => .ok j

/-- The first hole of the current session between two positions. -/
def gap? (j : Journal) (first last : Position) : Option Span :=
  j.current.bind fun s => s.store.gap? first last

/-- The snapshot of the current session. -/
def status? (j : Journal) : Option Status := j.current.map Session.status

/-- The accounts of the current session. -/
def progress? (j : Journal) : Option Progress := j.current.map Session.progress

/-- The bulk channel of the current session has been silent for as long as is tolerated. -/
def isStalled (j : Journal) : Bool := j.current.any Session.isStalled

/-- How many records the current session holds. -/
def count (j : Journal) : Nat := (j.current.map fun s => s.store.size).getD 0

/-! ### All sessions -/

/-- How many records all sessions hold. -/
def total (j : Journal) : Nat := j.sessions.foldr (fun s n => s.store.size + n) 0

/-- Every record of every session, in the order of the sessions and then of the positions. -/
def history (j : Journal) : List Placed := j.sessions.flatMap Session.history

/-- The journal without its sessions. -/
def clear (j : Journal) : Journal := empty j.device j.tolerance

/-! ### What opening a session does -/

/-- A journal that is in a session stays as it is. -/
theorem ensure_of_isIn {j : Journal} {info : SessionInfo} (h : j.isIn info.id)
    (latest : Position) (now : Instant) : j.ensure info latest now = j := if_pos h

/-- The given session is the current one. -/
theorem isIn_ensure (j : Journal) (info : SessionInfo) (latest : Position) (now : Instant) :
    (j.ensure info latest now).isIn info.id := by
  unfold ensure
  split
  · next h => exact h
  · simp [isIn, Session.id, Session.info_anchor, Session.begin]

end Journal

end Logbook
