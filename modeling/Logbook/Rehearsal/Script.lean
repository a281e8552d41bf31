import Logbook.Rehearsal.Device

/-!
# Scripted rehearsals

A script is a sequence of events for one device, with the state that it has to end in, the
requests that have to be made on the way, and how many records the history then has.

- `Rehearsal.Script`, `Rehearsal.Script.all`: the scripts.
- `Rehearsal.Script.play`: what comes of a script.
- `Rehearsal.Outcome.meets`: whether that is what the script expects.
-/

namespace Logbook.Rehearsal

/-- Events for one device, and what has to come of them. -/
structure Script where
  name : String
  description : String
  device : DeviceId
  /-- The events in the order of their arrival. -/
  events : List Inbound
  expectedState : UploadState
  /-- The requests that have to be made, in order. -/
  expectedRequests : List Span
  /-- How many records the history has at the end. -/
  expectedHistory : Nat

/-- What came of a script. -/
structure Outcome where
  state : UploadState
  requests : List Span
  /-- How many records the history has. -/
  history : Nat
  /-- How many times the state changed. -/
  transitions : Nat

/-- The requests among reports. -/
def requestsOf (sent : List Outbound) : List Span :=
  sent.filterMap fun m => match m.report with
    | .request span => some span
    | .state _ => none

namespace Outcome

/-- The outcome is the one that the script expects. -/
def meets (o : Outcome) (s : Script) : Bool :=
  o.state = s.expectedState && o.requests = s.expectedRequests && o.history = s.expectedHistory

end Outcome

namespace Script

/-- What comes of the script, with a tolerance of so many ticks. -/
def play (s : Script) (ticks : Counter) (backfillOnGap : Bool) :
    Except Reconciler.Error Outcome := do
  let r ← Reconciler.ofTicks s.device ticks backfillOnGap
  let a ← r.handleAll now s.events
  return {
    state := a.next.state
    requests := requestsOf a.sent
    history := a.next.journal.history.length
    transitions := a.sent.length - (requestsOf a.sent).length }

/-- Whether the script comes out as expected under the usual policy. -/
def verify (s : Script) : Bool :=
  match s.play Tolerance.standard.ticks Policy.standard.backfillOnGap with
  | .ok outcome => outcome.meets s
  | .error _ => false

/-! ### The scripts -/

/-- The position with a given number; scripts use small ones only. -/
def pos (n : Nat) : Position := (Position.ofNat? n).getD .zero

/-- The positions from `first` on, `count` of them. -/
def run (first count : Nat) : List Position := (List.range' first count).map pos

/-- A span of a script. -/
def span (first last : Nat) : Span := ⟨pos first, pos last⟩

/-- The complete state with records from `first` to `last`, `total` in number. -/
def complete (first last total : Nat) : UploadState :=
  .complete (some (pos first)) (some (pos last)) (UInt64.ofNat total)

/-- A device with its first ten records, which all arrive in order. -/
def fullUpload (d : Device) : Script where
  name := "full_upload"
  description := "Empty log, device holds [0, 9], every record delivered in order"
  device := d.id
  events := [d.cursor (pos 9), d.start (pos 0) (pos 9)] ++ d.bulks (run 0 10)
  expectedState := complete 0 9 10
  expectedRequests := [span 0 9]
  expectedHistory := 10

/-- The same records, shuffled and some of them twice. -/
def outOfOrder (d : Device) : Script where
  name := "out_of_order_bulk"
  description := "Bulk records arrive shuffled with duplicates"
  device := d.id
  events :=
    [d.cursor (pos 9), d.start (pos 0) (pos 9)] ++
      d.bulks ([9, 3, 0, 7, 3, 1, 8, 2, 6, 9, 4, 5].map pos)
  expectedState := complete 0 9 10
  expectedRequests := [span 0 9]
  expectedHistory := 10

/-- A transfer that is cut short and taken up again. -/
def resume (d : Device) : Script where
  name := "resume_after_disconnect"
  description := "Link drops after 60 records; the next transfer asks only for the rest"
  device := d.id
  events :=
    [d.cursor (pos 99), d.start (pos 0) (pos 99)] ++ d.bulks (run 0 60) ++
      [d.link false, d.cursor (pos 149), d.start (pos 0) (pos 149)] ++ d.bulks (run 60 90)
  expectedState := complete 0 149 150
  expectedRequests := [span 0 99, span 60 149]
  expectedHistory := 150

/-- A transfer that is given up because the bulk channel is silent. -/
def stalled (d : Device) : Script where
  name := "stalled_transfer"
  description := "Bulk channel goes silent; cursor ticks force completion"
  device := d.id
  events :=
    [d.cursor (pos 19), d.start (pos 0) (pos 19)] ++ d.bulks (run 0 5) ++
      (run 20 10).map d.cursor
  expectedState := complete 0 29 15
  expectedRequests := [span 0 19]
  expectedHistory := 15

/-- A hole that shows after the transfer and is filled. -/
def gapFilled (d : Device) : Script where
  name := "gap_backfill"
  description := "Cursor skips two records after completion; the gap is backfilled"
  device := d.id
  events :=
    [d.cursor (pos 4), d.start (pos 0) (pos 4)] ++ d.bulks (run 0 5) ++
      [d.cursor (pos 5), d.cursor (pos 8)] ++ d.bulks [pos 6, pos 7]
  expectedState := complete 0 8 9
  expectedRequests := [span 0 4, span 6 7]
  expectedHistory := 9

/-- A device that restarts after its transfer. -/
def rollover (d : Device) : Script where
  name := "session_rollover"
  description := "Device resets into a new session; old records stay in history"
  device := d.id
  events :=
    let d' := d.inSession 2
    [d.cursor (pos 4), d.start (pos 0) (pos 4)] ++ d.bulks (run 0 5) ++
      [d'.cursor (pos 2), d'.start (pos 0) (pos 2)] ++ d'.bulks (run 0 3)
  expectedState := complete 0 2 3
  expectedRequests := [span 0 4, span 0 2]
  expectedHistory := 8

/-- A transfer that the caller gives up. -/
def cancelled (d : Device) : Script where
  name := "cancelled_transfer"
  description := "Caller cancels a running transfer after three records"
  device := d.id
  events := [d.cursor (pos 9), d.start (pos 0) (pos 9)] ++ d.bulks (run 0 3) ++ [d.cancel]
  expectedState := complete 0 2 3
  expectedRequests := [span 0 9]
  expectedHistory := 3

/-- All scripts, for the usual device. -/
def all : List Script :=
  [fullUpload, outOfOrder, resume, stalled, gapFilled, rollover, cancelled].map (· .standard)

end Script

end Logbook.Rehearsal
