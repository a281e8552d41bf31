import Logbook.Proofs.Reconciler.Told

/-!
# Nothing is left of a journal that is dropped

When the journal is dropped, the reconciler is as if it had just been set up, and as if the device
had shown once that it is there if it was there before. Nothing of the past is left, be it a request
that is out, a hole that was given up or a session that was closed; so nothing of what comes later
can tell the two apart.

- `Reconciler.begin_of_settings`: a new reconciler, told from one with its settings.
- `Reconciler.exists_noticed`: a new reconciler over a record that is pushed.
- `Reconciler.next_reset`: what is left after the journal was dropped.
- `Reconciler.reset_leaves_nothing`: what comes later is what comes of a new reconciler.
-/

namespace Logbook.Reconciler

open Rehearsal Script

variable {r : Reconciler} {past : List Moment} {device : DeviceId} {policy : Policy}

/-- A new reconciler has the settings, and nothing else. -/
theorem begin_of_settings (h : r.settings = (device, policy)) :
    begin device policy =
      { r with
        journal := r.journal.clear
        state := .unavailable
        backfill := none
        floor := .zero } := by
  obtain ⟨rfl, rfl⟩ := Prod.mk.inj h
  rfl

/-- A record that is pushed shows a new reconciler that the device is there, and nothing else. -/
theorem exists_noticed (device : DeviceId) (policy : Policy) (now : Instant) (x : Record)
    (info : SessionInfo) :
    ∃ a, (begin device policy).handle now ⟨device, .cursor x info⟩ = .ok a ∧
      a.next = { begin device policy with state := .transferNeeded } := by
  refine ⟨(begin device policy).publish .transferNeeded, ?_, next_publish ..⟩
  exact if_pos rfl

/-- Whatever there was, only the settings are left, and whether the device is there. -/
theorem next_reset (h : r.settings = (device, policy)) :
    r.reset.next =
      { begin device policy with
        state := if r.state.isUnavailable then .unavailable else .transferNeeded } := by
  rw [begin_of_settings h]
  unfold reset
  by_cases hst : r.state.isUnavailable
  · have hsame := UploadState.isUnavailable_iff.mp hst
    rw [if_pos hst, if_pos hst, ← hsame]
    rfl
  · rw [if_neg hst, if_neg hst]
    exact next_publish ..

/-- **Nothing is left of a journal that is dropped.** The reconciler is as a new one if the device
was not there, and otherwise as a new one to which any record was pushed; so whatever comes later,
the same is sent, and the state and the history are the same. -/
theorem reset_leaves_nothing (h : Run (begin device policy) past r) (now : Instant) (x : Record)
    (info : SessionInfo) :
    ∃ q, (if r.state.isUnavailable then q = begin device policy
        else ∃ a, (begin device policy).handle now ⟨device, .cursor x info⟩ = .ok a ∧ q = a.next) ∧
      r.reset.next = q ∧
      ∀ us, told (r.reset.next.replay us).1 = told (q.replay us).1 ∧
        (r.reset.next.replay us).2.state = (q.replay us).2.state ∧
        (r.reset.next.replay us).2.journal.history = (q.replay us).2.journal.history := by
  have hsettings : r.settings = (device, policy) := h.settings
  have hnext := next_reset hsettings
  refine ⟨r.reset.next, ?_, rfl, fun us => ⟨rfl, rfl, rfl⟩⟩
  split
  · next hst =>
    rw [hnext, if_pos hst]
    rfl
  · next hst =>
    obtain ⟨a, ha, hnoticed⟩ := exists_noticed device policy now x info
    refine ⟨a, ha, ?_⟩
    rw [hnext, if_neg hst, hnoticed]

/-- Two sessions, of which the first one is closed. In the second one a hole is given up, and the
next one is out. -/
def twoSessions : List Inbound :=
  [Device.standard.start (pos 0) (pos 0), Device.standard.bulk (pos 0),
    (Device.standard.inSession 2).start (pos 0) (pos 0), Device.standard.bulk (pos 0),
    (Device.standard.inSession 2).cursor (pos 2), (Device.standard.inSession 2).cursor (pos 5)]

/-- Nothing is left of them. -/
theorem reset_leaves_nothing_of_two_sessions :
    ∃ past r q a, Run (begin Device.standard.id impatient) past r ∧ r.state.isComplete ∧
      r.backfill = some (span 3 4) ∧ r.floor = pos 2 ∧ r.journal.sessions.length = 2 ∧
      (begin Device.standard.id impatient).handle now (Device.standard.cursor (pos 0)) = .ok a ∧
      q = a.next ∧ r.reset.next = q ∧
      ∀ us, told (r.reset.next.replay us).1 = told (q.replay us).1 ∧
        (r.reset.next.replay us).2.state = (q.replay us).2.state ∧
        (r.reset.next.replay us).2.journal.history = (q.replay us).2.journal.history := by
  have hrun := run_rehearse impatient twoSessions
  obtain ⟨q, hq, hreset, hlater⟩ := reset_leaves_nothing hrun now (Device.record (pos 0))
    Device.standard.info
  have hthere : ¬ (rehearse impatient twoSessions).2.state.isUnavailable := by decide
  rw [if_neg hthere] at hq
  obtain ⟨a, ha, hnext⟩ := hq
  exact ⟨_, _, q, a, hrun, by decide, by decide, by decide, by decide, ha, hnext, hreset, hlater⟩

end Logbook.Reconciler
