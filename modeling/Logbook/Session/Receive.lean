import Logbook.Session.Basic

/-!
# Records arriving at a session

Records come in any order and more than once. Only the position decides whether a record is new.

- `Session.receiveBulk`: a record that answers a request. It is stored, and it shows that the
  bulk channel is alive.
- `Session.receiveCursor`: a record that the device pushes. It takes one tick of the tolerance,
  and is stored unless it lies behind what the cursor channel is expected to bring.
-/

namespace Logbook.Session

/-- Takes a record from the bulk channel. One at the unset mark is dropped. -/
def receiveBulk (s : Session) (r : Record) : Session :=
  if r.position.IsSet then
    { s with
      store := s.store.insert r
      progress :=
        if r.position ∈ s.store then s.progress
        else { s.progress with transferred := Counter.succ s.progress.transferred }
      patience := s.tolerance.ticks
      nextBulk := some (match s.nextBulk with
        | some p => max p r.position.next
        | none => r.position.next) }
  else s

/-- What the cursor channel is expected to bring, given that it brings `p`: without an
expectation, whatever comes is right. -/
def expectedCursor (s : Session) (p : Position) : Position := s.nextCursor.getD p

/-- Takes a record from the cursor channel. One at the unset mark is dropped, and one behind the
expectation is ignored; both take a tick of the tolerance. -/
def receiveCursor (s : Session) (r : Record) : Session :=
  let s := { s with patience := Counter.pred s.patience }
  if r.position.IsSet then
    if r.position < s.expectedCursor r.position then s
    else { s with store := s.store.insert r, nextCursor := some r.position.next }
  else s

end Logbook.Session
