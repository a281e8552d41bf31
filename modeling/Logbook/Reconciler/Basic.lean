import Logbook.Journal.Notes

/-!
# Reconcilers

A reconciler keeps the journal of one device in step with the device. It decides when to ask for
records, which holes to fill, and what callers are told.

- `Reconciler`: the journal, the upload state, and the hole that is being filled.
- `Reaction`: a reconciler after something happened, with what it sends and what it notes.
- `Reconciler.publish`: the one place where the upload state changes; each change is sent.
- `Reconciler.finish`: ends the request that is out and publishes the complete state.
- `Reconciler.nextGap?`: the hole that would be filled next.
-/

namespace Logbook

/-- What keeps the journal of one device in step with the device. -/
structure Reconciler where
  /-- Holes that show after a transfer are asked for again. -/
  backfillOnGap : Bool
  journal : Journal
  /-- How far the log has come, as callers see it. -/
  state : UploadState
  /-- The hole that is being filled. -/
  backfill : Option Span
  /-- Holes below this position were given up. -/
  floor : Position
deriving DecidableEq

/-- What becomes of a reconciler, what it sends, and what it notes. -/
structure Reaction where
  next : Reconciler
  sent : List Outbound
  notes : List Note
deriving DecidableEq

namespace Reaction

/-- One reaction after another. -/
def andThen (a : Reaction) (f : Reconciler → Reaction) : Reaction :=
  let b := f a.next
  ⟨b.next, a.sent ++ b.sent, a.notes ++ b.notes⟩

/-- One reaction after another, where the second one may fail. -/
def tryThen (a : Reaction) (f : Reconciler → Except RequestError Reaction) :
    Except RequestError Reaction :=
  (f a.next).map fun b => ⟨b.next, a.sent ++ b.sent, a.notes ++ b.notes⟩

@[simp] theorem next_andThen (a : Reaction) (f : Reconciler → Reaction) :
    (a.andThen f).next = (f a.next).next := rfl

@[simp] theorem sent_andThen (a : Reaction) (f : Reconciler → Reaction) :
    (a.andThen f).sent = a.sent ++ (f a.next).sent := rfl

end Reaction

namespace Reconciler

/-- The reconciler of a device that was never heard of. -/
def begin (device : DeviceId) (policy : Policy) : Reconciler where
  backfillOnGap := policy.backfillOnGap
  journal := .empty device policy.tolerance
  state := .unavailable
  backfill := none
  floor := .zero

/-- The device whose journal it keeps. -/
def device (r : Reconciler) : DeviceId := r.journal.device

/-- The snapshot of the current session. -/
def status? (r : Reconciler) : Option Status := r.journal.status?

/-- A reaction that sends nothing. -/
def quiet (r : Reconciler) (notes : List Note) : Reaction := ⟨r, [], notes⟩

/-- Changes the upload state and tells the caller, unless it is the same state. -/
def publish (r : Reconciler) (state : UploadState) : Reaction :=
  if r.state = state then r.quiet []
  else
    { next := { r with state := state }
      sent := [⟨r.device, .state state⟩]
      notes :=
        [if r.state.sameKind state then .stateUpdated r.device state
          else .stateChanged r.device r.state state] }

/-- Ends the request that is out and publishes what the session holds. -/
def finish (r : Reconciler) : Reaction :=
  match r.status? with
  | some status =>
    { r with journal := r.journal.update Session.finish }.publish (.ofStatus status)
  | none => r.quiet []

/-- Ends the filling of the hole that is out, and says why. -/
def dropBackfill (r : Reconciler) (notes : List Note) : Reaction :=
  { r with journal := r.journal.update Session.finish, backfill := none }.quiet notes

/-- The hole to be filled next: the first run of missing positions between the bounds of what is
held, above the holes that were given up. -/
def nextGap? (r : Reconciler) (status : Status) : Option Span :=
  if status.hasDropped then
    status.span?.bind fun span => r.journal.gap? (max span.first r.floor) span.last
  else none

/-- The hole to be filled next, if holes are filled at all. -/
def repairable? (r : Reconciler) (status : Status) : Option Span :=
  if r.backfillOnGap then r.nextGap? status else none

end Reconciler

end Logbook
