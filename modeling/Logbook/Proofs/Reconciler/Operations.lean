import Logbook.Reconciler.Handle
import Logbook.Proofs.Session
import Logbook.Proofs.Store.FirstGap

/-!
# What the operations of a reconciler change

The handlers are put together from a few operations: a session is put in the place of the current
one, a state is published, a request ends, a hole is looked for. Each is told here by the
reconciler that it leaves and by what it sends.

- `Reconciler.enter`: the reconciler with a session in the place of the current one.
- `Reconciler.announce`: what is sent when a state is published.
- `Reconciler.repairable?_eq_some`: a hole that is to be filled is the first one above the floor.
- `Reconciler.refreshed`: the reconciler after `Reconciler.refresh`.
-/

namespace Logbook

namespace UploadState

theorem isUnavailable_iff {st : UploadState} : st.isUnavailable ↔ st = .unavailable := by
  cases st <;> simp [isUnavailable]

theorem isInProgress_iff {st : UploadState} : st.isInProgress ↔ ∃ t q, st = .inProgress t q := by
  cases st <;> simp [isInProgress]

/-- A running transfer is not yet complete. -/
theorem not_isComplete_of_isInProgress {st : UploadState} (h : st.isInProgress) :
    ¬ st.isComplete := by
  cases st <;> simp_all [isInProgress, isComplete]

end UploadState

namespace Reconciler

variable {r : Reconciler} {s : Session}

/-- The reconciler with a session in the place of the current one. -/
def enter (r : Reconciler) (s : Session) : Reconciler :=
  { r with journal := { r.journal with current := some s } }

@[simp] theorem current_enter (r : Reconciler) (s : Session) :
    (r.enter s).journal.current = some s := rfl

@[simp] theorem state_enter (r : Reconciler) (s : Session) : (r.enter s).state = r.state := rfl

@[simp] theorem backfill_enter (r : Reconciler) (s : Session) :
    (r.enter s).backfill = r.backfill := rfl

@[simp] theorem floor_enter (r : Reconciler) (s : Session) : (r.enter s).floor = r.floor := rfl

theorem isIn_iff {j : Journal} {id : SessionId} :
    j.isIn id ↔ ∃ s, j.current = some s ∧ s.id = id := by
  rw [Journal.isIn, Option.any_eq_true]
  exact exists_congr fun s => and_congr_right fun _ => decide_eq_true_iff

theorem update_of_current (h : r.journal.current = some s) (f : Session → Session) :
    r.journal.update f = (r.enter (f s)).journal := by
  unfold Journal.update enter
  rw [h]
  rfl

/-! ## Published states -/

/-- What is sent when a state is published. -/
def announce (r : Reconciler) (state : UploadState) : List Outbound :=
  if r.state = state then [] else [⟨r.device, .state state⟩]

theorem announce_of_ne {state : UploadState} (h : r.state ≠ state) :
    r.announce state = [⟨r.device, .state state⟩] := if_neg h

/-- A state that was published already is left as it is, which is to put it in its own place. -/
@[simp] theorem next_publish (r : Reconciler) (state : UploadState) :
    (r.publish state).next = { r with state := state } := by
  unfold publish
  split
  · next h => rw [← h]; rfl
  · rfl

@[simp] theorem sent_publish (r : Reconciler) (state : UploadState) :
    (r.publish state).sent = r.announce state := by
  unfold publish announce
  split <;> rfl

theorem next_finish (h : r.journal.current = some s) :
    r.finish.next = { r.enter s.finish with state := .ofStatus s.status } := by
  unfold finish status? Journal.status?
  rw [h]
  show (publish _ _).next = _
  rw [next_publish, update_of_current h]
  rfl

theorem sent_finish (h : r.journal.current = some s) :
    r.finish.sent = r.announce (.ofStatus s.status) := by
  unfold finish status? Journal.status?
  rw [h]
  exact sent_publish _ _

/-! ## Holes -/

/-- A hole that is to be filled is the first one of the current session above the floor. -/
theorem repairable?_eq_some {status : Status} {gap : Span} (h : r.repairable? status = some gap) :
    r.backfillOnGap ∧ ∃ s span, r.journal.current = some s ∧ status.span? = some span ∧
      s.store.FirstGap (max span.first r.floor) span.last gap ∧ gap.last.IsSet := by
  unfold repairable? nextGap? at h
  split at h
  · next hon =>
    split at h
    · obtain ⟨span, hspan, h⟩ := Option.bind_eq_some_iff.mp h
      obtain ⟨s, hs, hgap⟩ := Option.bind_eq_some_iff.mp h
      exact ⟨hon, s, span, hs, hspan, Store.firstGap_of_gap? hgap⟩
    · cases h
  · cases h

theorem repair_of_none {status : Status} (h : r.repairable? status = none) (cursor : Position) :
    r.repair status cursor = .ok (r.publish (.ofStatus status)) := by
  unfold repair
  rw [h]
  rfl

theorem repair_of_some {status : Status} {gap : Span} (hs : r.journal.current = some s)
    (h : r.repairable? status = some gap) (cursor : Position) :
    ∃ a, r.repair status cursor = .ok a ∧
      a.next = { r.enter (s.asked gap cursor.next) with backfill := some gap } ∧
      a.sent = [⟨r.device, .request gap⟩] := by
  obtain ⟨_, _, _, _, _, hgap, _⟩ := repairable?_eq_some h
  unfold repair
  rw [h, hs]
  show ∃ a, (s.requestBackfill gap cursor >>= fun s => _) = _ ∧ _
  rw [show s.requestBackfill gap cursor = .ok (s.asked gap cursor.next) from
    Session.request_of_ordered hgap.ordered _]
  exact ⟨_, rfl, rfl, rfl⟩

/-- The reconciler after its state was brought up to date, unless a hole is yet to be filled. -/
def refreshed (r : Reconciler) (status : Status) : Reconciler :=
  { r with state := if (r.repairable? status).isSome then r.state else .ofStatus status }

theorem state_refreshed_of_none {status : Status} (h : r.repairable? status = none) :
    (r.refreshed status).state = .ofStatus status := by
  show (if (r.repairable? status).isSome then r.state else .ofStatus status) = _
  rw [h]
  rfl

theorem state_refreshed_of_some {status : Status} {gap : Span}
    (h : r.repairable? status = some gap) : (r.refreshed status).state = r.state := by
  show (if (r.repairable? status).isSome then r.state else .ofStatus status) = _
  rw [h]
  rfl

/-- A state that is up to date already stays as it is. -/
theorem state_refreshed_of_eq {status : Status} (h : r.state = .ofStatus status) :
    (r.refreshed status).state = .ofStatus status := by
  cases hgap : r.repairable? status with
  | none => exact state_refreshed_of_none hgap
  | some gap => exact (state_refreshed_of_some hgap).trans h

/-- A log that is complete stays so when its state is brought up to date. -/
theorem isComplete_refreshed (hst : r.state.isComplete) (status : Status) :
    (r.refreshed status).state.isComplete := by
  show (if _ then r.state else .ofStatus status).isComplete
  split
  · exact hst
  · rfl

theorem isInProgress_refreshed (hst : r.state.isComplete) (status : Status) :
    (r.refreshed status).state.isInProgress = false :=
  Bool.eq_false_iff.mpr fun h =>
    UploadState.not_isComplete_of_isInProgress h (isComplete_refreshed hst status)

/-- What is sent when the state is brought up to date. -/
def refreshSent (r : Reconciler) (status : Status) : List Outbound :=
  if (r.repairable? status).isSome then [] else r.announce (.ofStatus status)

theorem refreshSent_of_eq {status : Status} (h : r.state = .ofStatus status) :
    r.refreshSent status = [] := by
  unfold refreshSent announce
  rw [if_pos h, ite_self]

/-- A state that is new goes unsent only while a hole is yet to be filled. -/
theorem refreshSent_eq_nil_iff {status : Status} (h : r.state ≠ .ofStatus status) :
    r.refreshSent status = [] ↔ (r.repairable? status).isSome := by
  unfold refreshSent
  split
  · next hsome => exact iff_of_true rfl hsome
  · next hnone =>
    refine iff_of_false ?_ hnone
    rw [announce_of_ne h]
    exact List.cons_ne_nil _ _

theorem next_refresh (r : Reconciler) (status : Status) :
    (r.refresh status).next = r.refreshed status := by
  unfold refresh refreshed
  split
  · rfl
  · exact next_publish _ _

theorem sent_refresh (r : Reconciler) (status : Status) :
    (r.refresh status).sent = r.refreshSent status := by
  unfold refresh refreshSent
  split
  · rfl
  · exact sent_publish _ _

end Reconciler

end Logbook
