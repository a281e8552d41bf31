import Logbook.Reconciler.Basic

/-!
# How a reconciler reacts

One function for each kind of event, and `Reconciler.handle` over them. An event for another
device is refused; a reaction to any other event is a new reconciler with what it sends.

- `Reconciler.onLink`, `onCursor`, `onBulk`, `onStart`, `onCancel`: the kinds of event.
- `Reconciler.handle`, `Reconciler.handleAll`: an event as it comes in, with its device, and
  several of them.
- `Reconciler.reset`: the journal is dropped, which no event does.
-/

namespace Logbook.Reconciler

/-- Why an event is not handled, or a reconciler not set up. -/
inductive Error
  /-- The policy is refused. -/
  | policy (cause : Refusal)
  /-- The event is for another device. -/
  | misrouted (expected got : DeviceId)
  /-- A request could not be made. -/
  | request (cause : RequestError)
deriving DecidableEq

/-- The cause in words. -/
def Error.message : Error → String
  | .policy cause => s!"core error: {cause.message}"
  | .misrouted expected got => s!"event for device {got} delivered to coordinator for {expected}"
  | .request (.disordered span) => s!"request for a span out of order: {span}"

/-- The reconciler of a device, with a tolerance of so many ticks. -/
def ofTicks (device : DeviceId) (ticks : Counter) (backfillOnGap : Bool) :
    Except Error Reconciler :=
  match Policy.ofTicks ticks backfillOnGap with
  | .ok policy => .ok (begin device policy)
  | .error cause => .error (.policy cause)

/-! ### The link -/

/-- The link came up or went down. When it goes down, no request is out any more, and whatever
the cursor channel brings next is right. -/
def onLink (r : Reconciler) (connected : Bool) : Reaction :=
  if connected || r.state.isUnavailable then r.quiet []
  else
    ({ r with
      journal := r.journal.update Session.forgetCursor
      backfill := none }.quiet [.disconnected r.device]).andThen (·.publish .unavailable)

/-! ### Records from the cursor channel -/

/-- The device is in another session: the log of that one has to be fetched. -/
def leaveSession (r : Reconciler) (session : SessionId) : Reaction :=
  ({ r with backfill := none, floor := .zero }.quiet [.cursorElsewhere r.device session]).andThen
    (·.publish .transferNeeded)

/-- Gives up the hole that is out. It and what lies below it are not asked for again. -/
def abandonBackfill (r : Reconciler) : Reaction :=
  match r.backfill with
  | some gap =>
    { r with floor := max r.floor gap.last.next }.dropBackfill [.backfillStalled r.device gap]
  | none => r.quiet []

/-- Asks for the next hole while the cursor channel stands at `cursor`; without one, publishes
what the session holds. -/
def repair (r : Reconciler) (status : Status) (cursor : Position) :
    Except RequestError Reaction :=
  match r.repairable? status, r.journal.current with
  | some gap, some s => do
    let s ← s.requestBackfill gap cursor
    return {
      next := { r with journal := { r.journal with current := some s }, backfill := some gap }
      sent := [⟨r.device, .request gap⟩]
      notes := s.requestNotes gap ++ [.backfillOut r.device gap] }
  | _, _ => return r.publish (.ofStatus status)

/-- Takes a record into the current session `s` while a transfer is running: the transfer ends
if the bulk channel has been silent for too long. -/
def cursorInProgress (r : Reconciler) (s : Session) (record : Record) : Reaction :=
  let s' := s.receiveCursor record
  let taken := { r with journal := { r.journal with current := some s' } }.quiet
    (s.cursorNotes record)
  if s'.isStalled then
    taken.andThen fun r => (r.quiet [.transferStalled r.device]).andThen finish
  else taken

/-- Takes a record into the current session `s` while the log is complete. A hole that is out
is given up if the bulk channel has been silent for too long; when none is out, the next one is
asked for. -/
def cursorComplete (r : Reconciler) (s : Session) (record : Record) :
    Except RequestError Reaction :=
  let s' := s.receiveCursor record
  let taken := { r with journal := { r.journal with current := some s' } }.quiet
    (s.cursorNotes record)
  let taken := if s'.isStalled then taken.andThen abandonBackfill else taken
  if taken.next.backfill.isSome then .ok taken
  else taken.tryThen (·.repair s'.status record.position)

/-- The device pushes a record of the session that it is in. Before the first transfer it only
shows that there is something to transfer. -/
def onCursor (r : Reconciler) (record : Record) (info : SessionInfo) :
    Except RequestError Reaction :=
  match r.state, r.journal.current with
  | .unavailable, _ => .ok (r.publish .transferNeeded)
  | .transferNeeded, _ => .ok (r.quiet [])
  | .inProgress .., some s =>
    .ok (if s.id = info.id then r.cursorInProgress s record else r.leaveSession info.id)
  | .complete .., some s =>
    if s.id = info.id then r.cursorComplete s record else .ok (r.leaveSession info.id)
  | _, none => .ok (r.leaveSession info.id)

/-! ### Records from the bulk channel -/

/-- Publishes what the session holds, unless a hole is yet to be filled. -/
def refresh (r : Reconciler) (status : Status) : Reaction :=
  if (r.repairable? status).isSome then r.quiet [] else r.publish (.ofStatus status)

/-- The device answers a request with a record. It is stored whatever the state; the accounts of
the session say whether it was the last one that was missing. -/
def onBulk (r : Reconciler) (record : Record) : Reaction :=
  match r.journal.current with
  | none => r.quiet [.bulkHomeless r.device record.position]
  | some s =>
    let s' := s.receiveBulk record
    let taken := { r with journal := { r.journal with current := some s' } }.quiet
      (s.bulkNotes record)
    match r.state with
    | .inProgress .. =>
      if s'.progress.isComplete then taken.andThen finish
      else
        taken.andThen
          (·.publish (.inProgress s'.progress.transferred s'.progress.requested))
    | .complete .. =>
      if r.backfill.isNone then taken.andThen (·.refresh s'.status)
      else if s'.progress.isComplete then
        (taken.andThen fun r => r.dropBackfill [.backfillComplete r.device]).andThen
          (·.refresh s'.status)
      else taken
    | .unavailable | .transferNeeded =>
      taken.andThen fun r => r.quiet [.bulkLate r.device record.position]

/-! ### Transfers -/

/-- Asks for the span of a transfer. If all of it is held, the transfer ends at once. -/
def requestTransfer (r : Reconciler) (span : Span) : Except RequestError Reaction :=
  match r.journal.current with
  | none => return r.quiet []
  | some s => do
    let s ← s.requestTransfer span
    let asked : Reaction := {
      next := { r with journal := { r.journal with current := some s } }
      sent := [⟨r.device, .request span⟩]
      notes := s.requestNotes span ++ [.transferOut r.device span s.progress.expected] }
    if s.progress.isComplete then return asked.andThen finish
    else
      return asked.andThen
        (·.publish (.inProgress s.progress.transferred s.progress.requested))

/-- The caller wants all positions from `first` to `last`. The device's session becomes the
current one, and what it lacks of them is asked for. -/
def onStart (r : Reconciler) (first last : Position) (info : SessionInfo) (now : Instant) :
    Except RequestError Reaction :=
  let (journal, needed) := r.journal.prepare first last info now.notBeforeEpoch
  let ready := { r with journal := journal, backfill := none }.quiet (r.journal.ensureNotes info)
  match needed with
  | some span => ready.tryThen (·.requestTransfer span)
  | none =>
    .ok (ready.andThen fun r => (r.quiet [.nothingNeeded r.device]).andThen finish)

/-- The caller gives up what is out, be it a transfer or a hole. -/
def onCancel (r : Reconciler) : Reaction :=
  if r.state.isInProgress then (r.quiet [.transferCancelled r.device]).andThen finish
  else if r.backfill.isSome then r.dropBackfill [.backfillCancelled r.device]
  else r.quiet []

/-! ### All events -/

/-- The reaction to an event at the reconciler's own device, at the time `now`. -/
def react (r : Reconciler) (now : Instant) : Event → Except RequestError Reaction
  | .link connected => .ok (r.onLink connected)
  | .cursor record info => r.onCursor record info
  | .bulk record => .ok (r.onBulk record)
  | .start first last info => r.onStart first last info now
  | .cancel => .ok r.onCancel

/-- The reaction to an event as it comes in, at the time `now`. -/
def handle (r : Reconciler) (now : Instant) (m : Inbound) : Except Error Reaction :=
  if m.device = r.device then (r.react now m.event).mapError .request
  else .error (.misrouted r.device m.device)

/-- The reaction to events one after another. If one of them is refused, so are all. -/
def handleAll (r : Reconciler) (now : Instant) : List Inbound → Except Error Reaction
  | [] => .ok (r.quiet [])
  | m :: rest => do
    let a ← r.handle now m
    let b ← a.next.handleAll now rest
    return ⟨b.next, a.sent ++ b.sent, a.notes ++ b.notes⟩

/-- Drops the journal. A device that is connected then needs a transfer. -/
def reset (r : Reconciler) : Reaction :=
  let cleared := { r with
    journal := r.journal.clear
    backfill := none
    floor := .zero }.quiet r.journal.clearNotes
  if r.state.isUnavailable then cleared else cleared.andThen (·.publish .transferNeeded)

end Logbook.Reconciler
