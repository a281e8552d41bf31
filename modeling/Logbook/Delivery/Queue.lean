import Logbook.Message

/-!
# Bounded queues of reports

Reports can be handed over through a queue of limited capacity. Sending waits when the queue is
full, and fails for good once the receiving side is gone.

- `Queue`, `Queue.ofCapacity?`: a queue; not every number is a capacity.
- `Queue.send`, `Queue.sendAll`: sending one report, or several in order up to the first that
  does not go through at once.
- `Queue.receive`, `Queue.close`: the receiving side.
-/

namespace Logbook

/-- The receiving side takes no reports any more, for a reason. -/
structure Hangup where
  reason : String
deriving DecidableEq

namespace Hangup

/-- The receiving side is gone. -/
def receiverDropped : Hangup := ⟨"receiver dropped"⟩

/-- The cause in words. -/
def message (c : Hangup) : String := s!"event sink closed: {c.reason}"

end Hangup

/-- A queue of reports, oldest first. -/
structure Queue where
  capacity : Nat
  waiting : List Outbound
  isOpen : Bool

namespace Queue

/-- The largest capacity of a queue. -/
def maxCapacity : Nat := 2305843009213693951

/-- An empty queue. Its capacity is at least one and at most the largest there is. -/
def ofCapacity? (capacity : Nat) : Option Queue :=
  if 0 < capacity ∧ capacity ≤ maxCapacity then some ⟨capacity, [], true⟩ else none

/-- What becomes of a report that is sent. -/
inductive Sending
  /-- It is in the queue. -/
  | sent
  /-- It would have to wait for room, and is lost if it does not. -/
  | pending
  /-- The receiving side is gone. -/
  | refused (cause : Hangup)
deriving DecidableEq

/-- Sends one report. -/
def send (q : Queue) (m : Outbound) : Queue × Sending :=
  if !q.isOpen then (q, .refused .receiverDropped)
  else if q.waiting.length < q.capacity then ({ q with waiting := q.waiting ++ [m] }, .sent)
  else (q, .pending)

/-- Sends reports in order, up to the first that does not go through at once. -/
def sendAll (q : Queue) : List Outbound → Queue × Sending
  | [] => (q, .sent)
  | m :: rest =>
    match q.send m with
    | (q, .sent) => q.sendAll rest
    | stopped => stopped

/-- What the receiving side gets. -/
inductive Receipt
  | report (m : Outbound)
  | empty
  /-- It is gone itself. -/
  | closed
deriving DecidableEq

/-- Takes the oldest report. -/
def receive (q : Queue) : Queue × Receipt :=
  if !q.isOpen then (q, .closed)
  else match q.waiting with
    | m :: rest => ({ q with waiting := rest }, .report m)
    | [] => (q, .empty)

/-- Drops the receiving side, and what it did not take. -/
def close (q : Queue) : Queue := { q with waiting := [], isOpen := false }

end Queue

end Logbook
