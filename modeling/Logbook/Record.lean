import Logbook.Identity
import Logbook.Position

/-!
# Records

A record is one decoded sample: its position and the bytes of the sample, which are kept as they
came and never looked into.

- `Record`: a position and its payload.
- `Placed`: a record in a device's history, with its session and its place in time.
-/

namespace Logbook

/-- The bytes of a sample. -/
abbrev Payload := List UInt8

/-- One sample and where it stands in its session. -/
@[ext]
structure Record where
  position : Position
  payload : Payload
deriving DecidableEq

/-- A record in a device's history. -/
structure Placed where
  /-- The session that the record belongs to. -/
  session : SessionId
  /-- When it was taken, if the session's start is known. -/
  time : Option Instant
  record : Record
deriving DecidableEq

end Logbook
