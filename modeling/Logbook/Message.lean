import Logbook.Progress
import Logbook.Record

/-!
# Messages

A reconciler is told what happens at a device and answers with what is to be sent to the device
and to the caller.

- `UploadState`: how far the log of a device has come, as callers see it.
- `Event`, `Inbound`: what happens, and at which device.
- `Report`, `Outbound`: what is sent, and on behalf of which device.
-/

namespace Logbook

/-- How far the log of a device has come. -/
inductive UploadState
  /-- The device is not connected. -/
  | unavailable
  /-- Enough is known to start a transfer, and the caller has to ask for it. -/
  | transferNeeded
  /-- A transfer is running. -/
  | inProgress (transferred requested : Counter)
  /-- The log is up to date, though holes may still be asked for. -/
  | complete (lowest highest : Option Position) (total : UInt64)
deriving DecidableEq

namespace UploadState

/-- The complete state that a snapshot stands for. -/
def ofStatus (s : Status) : UploadState := .complete s.lowest s.highest s.count

/-- The log is up to date. -/
def isComplete : UploadState → Bool
  | .complete .. => true
  | _ => false

/-- A transfer is running. -/
def isInProgress : UploadState → Bool
  | .inProgress .. => true
  | _ => false

/-- The device is not connected. -/
def isUnavailable : UploadState → Bool
  | .unavailable => true
  | _ => false

/-- Both states are of one kind, whatever their numbers. -/
def sameKind : UploadState → UploadState → Bool
  | .unavailable, .unavailable => true
  | .transferNeeded, .transferNeeded => true
  | .inProgress .., .inProgress .. => true
  | .complete .., .complete .. => true
  | _, _ => false

/-- A bound of a complete state in words. -/
def describeBound : Option Position → String
  | some p => s!"Some(SequenceNumber({p}))"
  | none => "None"

/-- The state in words, for diagnostics. -/
def describe : UploadState → String
  | .unavailable => "Unavailable"
  | .transferNeeded => "TransferNeeded"
  | .inProgress transferred requested =>
    s!"InProgress \x7b transferred: {transferred}, requested: {requested} \x7d"
  | .complete lowest highest total =>
    s!"Complete \x7b min_seq: {describeBound lowest}, max_seq: {describeBound highest}, " ++
      s!"total: {total} \x7d"

end UploadState

/-- What happens at a device. -/
inductive Event
  /-- The link to the device came up or went down. -/
  | link (connected : Bool)
  /-- The device pushes its latest record and says which session it is in. -/
  | cursor (record : Record) (info : SessionInfo)
  /-- The device answers a request with one record. -/
  | bulk (record : Record)
  /-- The caller wants the log to hold what the device holds, from `first` to `last`. -/
  | start (first last : Position) (info : SessionInfo)
  /-- The caller gives up the running transfer. -/
  | cancel
deriving DecidableEq

/-- An event and the device at which it happens. -/
structure Inbound where
  device : DeviceId
  event : Event
deriving DecidableEq

/-- What is sent on behalf of a device. -/
inductive Report
  /-- To the device: send every record of the span. -/
  | request (span : Span)
  /-- To the caller: this is the state now. -/
  | state (state : UploadState)
deriving DecidableEq

/-- A report and the device on whose behalf it is sent. -/
structure Outbound where
  device : DeviceId
  report : Report
deriving DecidableEq

end Logbook
