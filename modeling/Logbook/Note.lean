import Logbook.Message

/-!
# Notes

Everything that a log does leaves a note for whoever operates it: a level, a message, and named
values.

- `Note`: the notes, each with the values that it names.
- `Note.render`: a note as one line.
-/

namespace Logbook

/-- How urgent a note is. -/
inductive Level
  | debug
  | info
  | warn
deriving DecidableEq

/-- The level as it stands in front of a line. -/
def Level.label : Level → String
  | .debug => "DEBUG"
  | .info => "INFO"
  | .warn => "WARN"

/-- What is noted. -/
inductive Note
  /-- A request is out. -/
  | requestOut (session : SessionId) (span : Span) (expected : Counter)
  /-- A bulk record without a position was dropped. -/
  | bulkUnset (session : SessionId)
  /-- A bulk record came that was held already. -/
  | bulkDuplicate (session : SessionId) (position : Position)
  /-- A cursor record without a position was dropped. -/
  | cursorUnset (session : SessionId)
  /-- A cursor record came from beyond the expectation. -/
  | cursorAhead (session : SessionId) (expected position : Position)
  /-- A cursor record came from behind the expectation and was ignored. -/
  | cursorBehind (session : SessionId) (expected position : Position)
  /-- The first session of a device was opened. -/
  | sessionOpened (device : DeviceId) (session : SessionId)
  /-- A session of a device was superseded. -/
  | sessionChanged (device : DeviceId) (previous session : SessionId)
  /-- All sessions of a device were dropped. -/
  | journalCleared (device : DeviceId) (sessions : Nat)
  /-- The link to a device went down. -/
  | disconnected (device : DeviceId)
  /-- A cursor record came from a session that is not open. -/
  | cursorElsewhere (device : DeviceId) (session : SessionId)
  /-- A transfer was given up because the bulk channel is silent. -/
  | transferStalled (device : DeviceId)
  /-- A hole is asked for. -/
  | backfillOut (device : DeviceId) (span : Span)
  /-- A hole was filled. -/
  | backfillComplete (device : DeviceId)
  /-- A hole was given up because the bulk channel is silent. -/
  | backfillStalled (device : DeviceId) (span : Span)
  /-- A hole was given up because the caller wants it. -/
  | backfillCancelled (device : DeviceId)
  /-- A bulk record came before any session. -/
  | bulkHomeless (device : DeviceId) (position : Position)
  /-- A bulk record came while no transfer was running. -/
  | bulkLate (device : DeviceId) (position : Position)
  /-- A transfer had nothing to ask for. -/
  | nothingNeeded (device : DeviceId)
  /-- A transfer asks for records. -/
  | transferOut (device : DeviceId) (span : Span) (expected : Counter)
  /-- A transfer was given up because the caller wants it. -/
  | transferCancelled (device : DeviceId)
  /-- The upload state is of another kind than before. -/
  | stateChanged (device : DeviceId) (before after : UploadState)
  /-- The upload state has other numbers than before. -/
  | stateUpdated (device : DeviceId) (state : UploadState)
  /-- A device was heard of for the first time. -/
  | deviceTracked (device : DeviceId)
  /-- Reports of a device could not be delivered. -/
  | deliveryFailed (device : DeviceId) (cause : String)
  /-- An event of a device was refused. -/
  | eventRejected (device : DeviceId) (cause : String)
  /-- The worker of a device came to its end. -/
  | workerEnded (device : DeviceId)
  /-- The worker of a device had crashed. -/
  | workerCrashed (device : DeviceId)
deriving DecidableEq

namespace Note

/-- How urgent a note is. -/
def level : Note → Level
  | .requestOut .. | .bulkUnset .. | .bulkDuplicate .. | .cursorUnset .. | .cursorBehind ..
  | .bulkHomeless .. | .bulkLate .. | .nothingNeeded .. | .stateUpdated .. | .workerEnded .. =>
    .debug
  | .sessionOpened .. | .sessionChanged .. | .journalCleared .. | .disconnected ..
  | .cursorElsewhere .. | .backfillOut .. | .backfillComplete .. | .backfillCancelled ..
  | .transferOut .. | .transferCancelled .. | .stateChanged .. | .deviceTracked .. => .info
  | .cursorAhead .. | .transferStalled .. | .backfillStalled .. | .deliveryFailed ..
  | .eventRejected .. | .workerCrashed .. => .warn

/-- What a note has to say. -/
def message : Note → String
  | .requestOut .. => "bulk request started"
  | .bulkUnset .. => "bulk record at unset sequence dropped"
  | .bulkDuplicate .. => "duplicate bulk record"
  | .cursorUnset .. => "cursor record at unset sequence dropped"
  | .cursorAhead .. => "cursor gap detected"
  | .cursorBehind .. => "stale cursor record"
  | .sessionOpened .. => "first session opened"
  | .sessionChanged .. => "device session changed"
  | .journalCleared .. => "device log cleared"
  | .disconnected .. => "device disconnected"
  | .cursorElsewhere .. => "cursor reports a new session"
  | .transferStalled .. => "bulk transfer stalled, forcing completion"
  | .backfillOut .. => "backfilling gap"
  | .backfillComplete .. => "backfill complete"
  | .backfillStalled .. => "backfill stalled, giving up gap"
  | .backfillCancelled .. => "backfill cancelled"
  | .bulkHomeless .. => "bulk record with no session"
  | .bulkLate .. => "late bulk record"
  | .nothingNeeded .. => "log already holds every device record"
  | .transferOut .. => "requesting records"
  | .transferCancelled .. => "transfer cancelled"
  | .stateChanged .. => "upload state changed"
  | .stateUpdated .. => "upload state updated"
  | .deviceTracked .. => "tracking new device"
  | .deliveryFailed _ cause => s!"failed to emit events: {cause}"
  | .eventRejected _ cause => s!"event rejected: {cause}"
  | .workerEnded .. => "device task stopped"
  | .workerCrashed .. => "device task ended abnormally"

/-- The values that a note names, in order. -/
def fields : Note → List (String × String)
  | .requestOut session span expected =>
    [("session", toString session), ("range", toString span), ("expected", toString expected)]
  | .bulkUnset session | .cursorUnset session => [("session", toString session)]
  | .bulkDuplicate session position =>
    [("session", toString session), ("seq", toString position)]
  | .cursorAhead session expected position | .cursorBehind session expected position =>
    [("session", toString session), ("expected", toString expected),
      ("seq", toString position)]
  | .sessionOpened device session | .cursorElsewhere device session =>
    [("device", toString device), ("session", toString session)]
  | .sessionChanged device previous session =>
    [("device", toString device), ("previous", toString previous),
      ("session", toString session)]
  | .journalCleared device sessions =>
    [("device", toString device), ("sessions", toString sessions)]
  | .backfillOut device span | .backfillStalled device span =>
    [("device", toString device), ("range", toString span)]
  | .bulkHomeless device position | .bulkLate device position =>
    [("device", toString device), ("seq", toString position)]
  | .transferOut device span expected =>
    [("device", toString device), ("range", toString span), ("expected", toString expected)]
  | .stateChanged device before after =>
    [("device", toString device), ("from", before.describe), ("to", after.describe)]
  | .stateUpdated device state => [("device", toString device), ("state", state.describe)]
  | .disconnected device | .transferStalled device | .backfillComplete device
  | .backfillCancelled device | .nothingNeeded device | .transferCancelled device
  | .deviceTracked device | .deliveryFailed device _ | .eventRejected device _
  | .workerEnded device | .workerCrashed device => [("device", toString device)]

/-- The note as one line: its level, its message, and its values by name. -/
def render (n : Note) : String :=
  n.fields.foldl (fun line (name, value) => s!"{line} {name}={value}")
    s!"{n.level.label} {n.message}"

end Note

end Logbook
