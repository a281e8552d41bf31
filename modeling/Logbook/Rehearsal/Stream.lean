import Logbook.Position

/-!
# Cursor streams with losses

A device pushes its latest record now and then, and some are lost on the way. Such a stream is
given by the first position that arrives and the steps from each arrival to the next.

- `Rehearsal.Stream.positions`: the positions that arrive.
- `Rehearsal.Stream.dropped`: those in between that do not.
-/

namespace Logbook.Rehearsal

/-- A stream of cursor records with losses. -/
structure Stream where
  /-- The first position that arrives. -/
  start : Nat
  /-- How far it is from each arrival to the next; one means that nothing is lost. -/
  steps : List Nat

namespace Stream

/-- The numbers reached from `n` by taking the steps. -/
def arrivalsFrom (n : Nat) : List Nat → List Nat
  | [] => [n]
  | step :: rest => n :: arrivalsFrom (n + step) rest

/-- The numbers passed over from `n` on when taking the steps. -/
def lossesFrom (n : Nat) : List Nat → List Nat
  | [] => []
  | step :: rest => List.range' (n + 1) (step - 1) ++ lossesFrom (n + step) rest

/-- The positions that arrive, in order. -/
def positions (s : Stream) : List Position :=
  (arrivalsFrom s.start s.steps).filterMap Position.ofNat?

/-- The positions that are lost, in order. -/
def dropped (s : Stream) : List Position :=
  (lossesFrom s.start s.steps).filterMap Position.ofNat?

end Stream

end Logbook.Rehearsal
