import Logbook.Delivery.Queue

/-!
# Outlets that may fail

All workers hand their reports to one outlet. Whether a report gets through is not theirs to
say: some attempts fail, and some bring down the worker that made them. Attempts are counted
over all workers.

- `Fate`: what happens to an attempt.
- `Outlet`: the fates of all attempts, and how many were made.
- `Outlet.deliver`: hands over reports in order, up to the first that does not get through.
-/

namespace Logbook

/-- What happens to an attempt to hand over a report. -/
inductive Fate
  /-- The report gets through, if there is a receiver. -/
  | deliver
  /-- The attempt fails. -/
  | refuse (reason : String)
  /-- The attempt brings down the worker that makes it. -/
  | crash
deriving DecidableEq

/-- Where workers hand over their reports. -/
structure Outlet where
  /-- What happens to each attempt; the first one has number one. -/
  fate : Nat → Fate
  /-- How many attempts were made. -/
  attempts : Nat
  /-- There is a receiver. -/
  isOpen : Bool

/-- Why a worker stopped handing over reports. -/
inductive Interruption
  | closed (cause : Hangup)
  | crashed
deriving DecidableEq

/-- What came of handing over reports. -/
structure Delivery where
  outlet : Outlet
  delivered : List Outbound
  /-- Why the reports after those were not delivered, if there are any. -/
  interruption : Option Interruption

namespace Outlet

/-- What keeps the next report from getting through, if anything does. -/
def obstacle? (o : Outlet) : Option Interruption :=
  match o.fate (o.attempts + 1) with
  | .crash => some .crashed
  | .refuse reason => some (.closed ⟨reason⟩)
  | .deliver => if o.isOpen then none else some (.closed .receiverDropped)

/-- Hands over reports in order, up to the first that does not get through. -/
def deliver (o : Outlet) : List Outbound → Delivery
  | [] => ⟨o, [], none⟩
  | m :: rest =>
    let o' := { o with attempts := o.attempts + 1 }
    match o.obstacle? with
    | some interruption => ⟨o', [], some interruption⟩
    | none =>
      let d := o'.deliver rest
      { d with delivered := m :: d.delivered }

/-- The outlet without a receiver. -/
def close (o : Outlet) : Outlet := { o with isOpen := false }

end Outlet

end Logbook
