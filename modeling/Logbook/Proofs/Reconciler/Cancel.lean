import Logbook.Proofs.Reconciler.Outstanding
import Logbook.Proofs.Reconciler.Reset

/-!
# Giving up what is out

A caller may give up at any time. A transfer that is running then ends with what came of it, and a
hole that is out is left as it is; nothing is asked for, and nothing that is known about the device
is lost. To give up once more changes nothing.

- `Session.Undisturbed`, `Reconciler.Spares`: nothing changes but that no request is out.
- `Reconciler.GivesUp`: what comes of giving up.
- `Reconciler.Outstanding.givesUp`: that comes of it, by the rules, when the state, the hole that is
  out and the accounts agree.
- `Reconciler.onCancel_of_idle`: nothing comes of it when nothing is out.
- `Reconciler.cancelled_for_good`: both of them, after every run.
-/

namespace Logbook

open Rehearsal Script

/-- The session `t` is the session `s`, but for where the bulk channel goes on. -/
structure Session.Undisturbed (s t : Session) : Prop where
  info : t.info = s.info
  tolerance : t.tolerance = s.tolerance
  start : t.start = s.start
  store : t.store = s.store
  nextCursor : t.nextCursor = s.nextCursor
  progress : t.progress = s.progress
  patience : t.patience = s.patience

theorem Session.Undisturbed.refl (s : Session) : s.Undisturbed s :=
  ⟨rfl, rfl, rfl, rfl, rfl, rfl, rfl⟩

theorem Session.undisturbed_finish (s : Session) : s.Undisturbed s.finish :=
  ⟨rfl, rfl, rfl, rfl, rfl, rfl, rfl⟩

namespace Reconciler

variable {r q : Reconciler} {s : Session} {sent : List Outbound} {past : List Moment}
  {device : DeviceId} {policy : Policy} {now : Instant}

/-! ## What is spared -/

/-- The reconciler `q` has the settings, the sessions and the floor of the reconciler `r`. -/
structure Spares (r q : Reconciler) : Prop where
  settings : q.settings = r.settings
  closed : q.journal.closed = r.journal.closed
  current : Option.Rel Session.Undisturbed r.journal.current q.journal.current
  floor : q.floor = r.floor

theorem Spares.refl (r : Reconciler) : r.Spares r where
  settings := rfl
  closed := rfl
  current := by
    cases r.journal.current with
    | none => exact .none
    | some s => exact .some (.refl s)
  floor := rfl

/-! ## Giving up -/

/-- What comes of giving up. -/
structure GivesUp (r : Reconciler) (a : Reaction) : Prop where
  /-- Neither a transfer nor a hole is out. -/
  state : a.next.state.isInProgress = false
  backfill : a.next.backfill = none
  /-- A transfer that was running is published as complete with what the session holds, and that is
  all that is sent. -/
  running : r.state.isInProgress → ∃ status, r.status? = some status ∧
    a.next.status? = some status ∧ a.next.state = .ofStatus status ∧
    a.sent = [⟨r.device, .state (.ofStatus status)⟩]
  /-- Otherwise nothing is sent, and the state stays as it was. -/
  idle : ¬ r.state.isInProgress → a.next.state = r.state ∧ a.sent = []
  spares : r.Spares a.next

theorem status?_of_current (hs : r.journal.current = some s) : r.status? = some s.status :=
  congrArg (Option.map Session.status) hs

theorem Outstanding.givesUp {notes : List Note} (h : Outstanding r)
    (hstep : Step r (.event now ⟨r.device, .cancel⟩) q sent) : GivesUp r ⟨q, sent, notes⟩ := by
  cases hstep with
  | ignored hnothing =>
    rw [Ignores] at hnothing
    -- a transfer that is running has a session, so nothing comes of it only if nothing is out
    have hnot : ¬ r.state.isInProgress := by
      intro hst
      rw [if_pos hst] at hnothing
      obtain ⟨t, n, he⟩ := UploadState.isInProgress_iff.mp hst
      obtain ⟨-, s, hs, -⟩ := h.transfer t n he
      rw [hs] at hnothing
      cases hnothing
    rw [if_neg hnot] at hnothing
    exact ⟨Bool.eq_false_iff.mpr hnot, hnothing, fun hst => absurd hst hnot,
      fun _ => ⟨rfl, rfl⟩, .refl r⟩
  | @cancelled _ s hs hst =>
    have hne : r.state ≠ .ofStatus s.status := by
      intro he
      rw [he] at hst
      cases hst
    refine ⟨rfl, (h.of_current hs hst).1, fun _ => ?_, fun hnot => absurd hst hnot, ?_⟩
    · exact ⟨s.status, status?_of_current hs, rfl, rfl, announce_of_ne hne⟩
    · refine ⟨rfl, rfl, ?_, rfl⟩
      rw [hs]
      exact .some s.undisturbed_finish
  | dropped hst hgap =>
    refine ⟨Bool.eq_false_iff.mpr hst, rfl, fun hrunning => absurd hrunning hst,
      fun _ => ⟨rfl, rfl⟩, rfl, rfl, ?_, rfl⟩
    obtain ⟨-, -, s, hs, -⟩ := h.gap _ hgap
    rw [update_of_current hs, current_enter, hs]
    exact .some s.undisturbed_finish

/-- Nothing comes of giving up when nothing is out. -/
theorem onCancel_of_idle (hst : r.state.isInProgress = false) (hfree : r.backfill = none) :
    r.onCancel = r.quiet [] := by
  unfold onCancel
  rw [hst, hfree]
  rfl

theorem handle_cancel (r : Reconciler) (now : Instant) :
    r.handle now ⟨r.device, .cancel⟩ = .ok r.onCancel := if_pos rfl

/-- **What is given up is given up for good, and nothing else is.** After every run the caller can
give up. Then no request is out; a transfer that was running is published as complete with what the
session holds, and nothing else is sent; nothing that is known about the device is lost. To give up
once more changes nothing, and nothing is sent or noted. -/
theorem cancelled_for_good (h : Run (begin device policy) past r) (now : Instant) :
    ∃ a, r.handle now ⟨device, .cancel⟩ = .ok a ∧ GivesUp r a ∧
      ∀ later, a.next.handle later ⟨device, .cancel⟩ = .ok (a.next.quiet []) := by
  have hdevice : r.device = device := (Prod.ext_iff.mp h.settings).1
  have hout : Outstanding r :=
    h.invariant (I := fun _ r => r.Outstanding) (Outstanding.of_nothing rfl rfl) Outstanding.step
  obtain ⟨⟨q, sent, notes⟩, ha, hstep⟩ := exists_react r now .cancel
  have hgives : GivesUp r ⟨q, sent, notes⟩ := hout.givesUp hstep
  have hnext : q.device = device := hstep.keeps_device.trans hdevice
  rw [hdevice] at ha
  refine ⟨_, ha, hgives, fun later => ?_⟩
  rw [← hnext]
  show q.handle later ⟨q.device, .cancel⟩ = _
  rw [handle_cancel, onCancel_of_idle hgives.state hgives.backfill]

/-- After two sessions, with a hole of the second one given up, a transfer of that one is running,
to which one record came. -/
def thirdTransfer : List Inbound :=
  twoSessions ++ [(Device.standard.inSession 2).start (pos 0) (pos 9), Device.standard.bulk (pos 7)]

/-- It ends with four records when it is given up. -/
theorem cancelled_for_good_in_third_transfer :
    ∃ past r a, Run (begin Device.standard.id impatient) past r ∧ r.state = .inProgress 1 9 ∧
      r.floor = pos 2 ∧ r.journal.closed.length = 1 ∧
      r.handle Rehearsal.now ⟨Device.standard.id, .cancel⟩ = .ok a ∧ GivesUp r a ∧
      a.next.state = complete 0 7 4 ∧ a.next.floor = pos 2 ∧
      ∀ later, a.next.handle later ⟨Device.standard.id, .cancel⟩ = .ok (a.next.quiet []) := by
  have hrun := run_rehearse impatient thirdTransfer
  obtain ⟨a, ha, hgives, hagain⟩ := cancelled_for_good hrun Rehearsal.now
  have hrunning : (rehearse impatient thirdTransfer).2.state.isInProgress := by decide
  obtain ⟨status, hstatus, -, hstate, -⟩ := hgives.running hrunning
  have hfour : (rehearse impatient thirdTransfer).2.status? =
      some ⟨⟨2⟩, some (pos 0), some (pos 7), 4⟩ := by decide
  obtain rfl := Option.some_inj.mp (hstatus.symm.trans hfour)
  exact ⟨_, _, a, hrun, by decide, by decide, by decide, ha, hgives, hstate,
    hgives.spares.floor.trans (by decide), hagain⟩

end Reconciler

end Logbook
