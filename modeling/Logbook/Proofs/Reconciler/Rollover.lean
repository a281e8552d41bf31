import Logbook.Proofs.Reconciler.Floor
import Logbook.Proofs.Reconciler.Transfers

/-!
# What is left of a session after a rollover

A transfer for another session opens that session without records. Of the sessions before it
nothing is left that can be seen, with one exception: the floor, below which no hole is filled,
stays where the last session left it.

- `Reconciler.rolled`: what a transfer for another session leaves of a reconciler.
- `Reconciler.watch_eq_iff_floor_eq`: after the same rollover two reconcilers of one device look
  alike from then on exactly when their floors stood alike before.
-/

namespace Logbook.Reconciler

variable {r q : Reconciler} {s : Session} {sent : List Outbound} {info : SessionInfo}
  {first last : Position} {now : Instant}

/-- What is left of a reconciler after a transfer for another session: nothing of its past but
the floor. -/
def rolled (device : DeviceId) (policy : Policy) (floor first last : Position)
    (info : SessionInfo) (now : Instant) : Reconciler :=
  let begun := ((Session.begin info policy.tolerance).anchor last now.notBeforeEpoch).started
    first last
  { backfillOnGap := policy.backfillOnGap
    journal := ⟨device, policy.tolerance, [], some begun.1⟩
    state := begun.2
    backfill := none
    floor := floor }

theorem exists_rolled {device : DeviceId} {policy : Policy} {past : List Moment}
    (h : Run (begin device policy) past r) (hout : r.journal.isIn info.id = false)
    (first last : Position) (now : Instant) :
    ∃ a closed, r.handle now ⟨device, .start first last info⟩ = .ok a ∧
      a.next = (rolled device policy r.floor first last info now).withClosed closed := by
  obtain ⟨hdevice, hpolicy⟩ := Prod.ext_iff.mp h.settings
  have hdevice : r.journal.device = device := hdevice
  have htolerance : r.journal.tolerance = policy.tolerance := congrArg Policy.tolerance hpolicy
  have hon : r.backfillOnGap = policy.backfillOnGap := congrArg Policy.backfillOnGap hpolicy
  obtain ⟨a, ha, hstep⟩ := exists_react r now (.start first last info)
  rcases r.opened_cases info last now with ⟨hin, -⟩ | ⟨-, hcurrent⟩
  · rw [hout] at hin
    cases hin
  · obtain ⟨hnext, -⟩ := hstep.starts hcurrent
    refine ⟨a, r.journal.sessions, ?_, ?_⟩
    · rw [← hdevice]
      exact ha
    · rw [hnext, htolerance]
      unfold opened Journal.ensure rolled withClosed enter
      rw [if_neg (by rw [hout]; exact Bool.false_ne_true), hdevice, htolerance, hon]

theorem vacant_rolled {device : DeviceId} {policy : Policy} (hon : policy.backfillOnGap)
    (floor first last : Position) (info : SessionInfo) (now : Instant) :
    Vacant (rolled device policy floor first last info now)
      (((Session.begin info policy.tolerance).anchor last now.notBeforeEpoch).started
        first last).1 where
  current := rfl
  empty := by
    rw [Session.store_started, Session.store_anchor]
    rfl
  free := rfl
  on := hon

/-- What can be seen after a rollover tells on which side of a position the floor is. -/
theorem floor_le_iff_of_watch {device : DeviceId} {policy : Policy} (hon : policy.backfillOnGap)
    {f f' first last : Position} {info : SessionInfo} {now : Instant}
    (h : ∀ ms, (rolled device policy f first last info now).watch ms =
      (rolled device policy f' first last info now).watch ms)
    (x : Position) (hpos : 1 ≤ x.toNat) (hlt : x.toNat < 4294967294) :
    f.toNat ≤ x.toNat ↔ f'.toNat ≤ x.toNat := by
  have hst := Session.state_started
    ((Session.begin info policy.tolerance).anchor last now.notBeforeEpoch) first last
  obtain ⟨e₁, e₂, sent, seen, hwatch, hsent⟩ :=
    watch_probe hpos hlt (vacant_rolled hon f first last info now) hst now
  obtain ⟨e₁', e₂', sent', seen', hwatch', hsent'⟩ :=
    watch_probe hpos hlt (vacant_rolled hon f' first last info now) hst now
  have hsame : [e₁, e₂, (.ok sent, seen)] = [e₁', e₂', (.ok sent', seen')] := by
    rw [← hwatch, ← hwatch']
    exact h _
  have hsame : sent = sent' := by
    injection hsame with _ hsame
    injection hsame with _ hsame
    injection hsame with hsame
    injection hsame with hsame
    exact Except.ok.inj hsame
  rw [← hsame] at hsent'
  exact hsent.symm.trans hsent'

/-- **After the same rollover two reconcilers of one device look alike from then on exactly when
their floors stood alike before it**: what is sent for each event, and the state, the status and
the hole that is out. -/
theorem watch_eq_iff_floor_eq {device : DeviceId} {policy : Policy} {past past' : List Moment}
    {r r' : Reconciler} (h : Run (begin device policy) past r)
    (h' : Run (begin device policy) past' r') (hout : r.journal.isIn info.id = false)
    (hout' : r'.journal.isIn info.id = false) (first last : Position) (now : Instant) :
    ∃ a a', r.handle now ⟨device, .start first last info⟩ = .ok a ∧
      r'.handle now ⟨device, .start first last info⟩ = .ok a' ∧ a.next.face = a'.next.face ∧
      ((∀ ms, a.next.watch ms = a'.next.watch ms) ↔ r.floor = r'.floor) := by
  obtain ⟨a, closed, ha, hnext⟩ := exists_rolled h hout first last now
  obtain ⟨a', closed', ha', hnext'⟩ := exists_rolled h' hout' first last now
  refine ⟨a, a', ha, ha', by rw [hnext, hnext']; rfl, ?_⟩
  rw [hnext, hnext']
  constructor
  · intro hwatch
    cases hon : policy.backfillOnGap with
    | false => rw [floor_eq_zero h hon, floor_eq_zero h' hon]
    | true =>
      have hsame (ms : List (Instant × Inbound)) :
          (rolled device policy r.floor first last info now).watch ms =
            (rolled device policy r'.floor first last info now).watch ms := by
        rw [← watch_withClosed _ closed, ← watch_withClosed (rolled _ _ r'.floor _ _ _ _) closed']
        exact hwatch ms
      have hiff := floor_le_iff_of_watch hon hsame
      obtain ⟨hle, hset⟩ := (Floored.after_run h).toNat_floor
      obtain ⟨hle', hset'⟩ := (Floored.after_run h').toNat_floor
      -- no probe tells the floors apart, so neither is below the other
      apply Position.ext
      apply Nat.le_antisymm
      · exact floor_le_of_forall hle hset fun x hpos hlt => (hiff x hpos hlt).mpr
      · exact floor_le_of_forall hle' hset' fun x hpos hlt => (hiff x hpos hlt).mp
  · intro hfloor ms
    rw [watch_withClosed, watch_withClosed, hfloor]

end Reconciler

/-! ## Two rehearsals -/

namespace Reconciler

open Rehearsal Script

/-- A transfer of one position leaves nothing of its session behind. -/
theorem watch_eq_iff_after_one_record :
    ∃ past past' r r' a a', Run (begin Device.standard.id .standard) past r ∧
      Run (begin Device.standard.id .standard) past' r' ∧ r.journal.current = none ∧
      r'.journal.current.isSome ∧
      r.handle now ((Device.standard.inSession 2).start (pos 0) (pos 0)) = .ok a ∧
      r'.handle now ((Device.standard.inSession 2).start (pos 0) (pos 0)) = .ok a' ∧
      ∀ ms, a.next.watch ms = a'.next.watch ms := by
  have hrun := run_rehearse .standard []
  have hrun' := run_rehearse .standard
    [Device.standard.start (pos 0) (pos 0), Device.standard.bulk (pos 0)]
  have hout : (rehearse .standard []).2.journal.isIn (Device.standard.inSession 2).info.id =
      false := by decide
  obtain ⟨a, a', ha, ha', -, hwatch⟩ :=
    watch_eq_iff_floor_eq hrun hrun' hout (by decide) (pos 0) (pos 0) now
  exact ⟨_, _, _, _, a, a', hrun, hrun', by decide, by decide, ha, ha', hwatch.mpr (by decide)⟩

/-- The hole from 1 to 4 is asked for, and given up at the next tick. -/
def givenUp : List Inbound :=
  [Device.standard.start (pos 0) (pos 0), Device.standard.bulk (pos 0),
    Device.standard.cursor (pos 5), Device.standard.cursor (pos 6)]

/-- A transfer in the next session, after which the positions 1 and 2 are missing. -/
def nextSession : List (Instant × Inbound) :=
  [(now, (Device.standard.inSession 2).bulk (pos 0)),
    (now, (Device.standard.inSession 2).cursor (pos 3))]

/-- The holes that are seen to be out in the next session. -/
def holesSeen (a : Reaction) : List (Option Span) := (a.next.watch nextSession).map (·.2.backfill)

/-- The hole from 1 to 2 of the next session is not filled, because one was given up in the session
before. -/
theorem rollover_leaves_the_floor :
    ¬ ∀ (past past' : List Moment) (r r' : Reconciler) (first last : Position)
        (info : SessionInfo) (now : Instant) (a a' : Reaction),
      Run (begin Device.standard.id impatient) past r →
        Run (begin Device.standard.id impatient) past' r' →
          r.journal.isIn info.id = false → r'.journal.isIn info.id = false →
            r.handle now ⟨Device.standard.id, .start first last info⟩ = .ok a →
              r'.handle now ⟨Device.standard.id, .start first last info⟩ = .ok a' →
                ∀ ms, a.next.watch ms = a'.next.watch ms := by
  intro hall
  have hrun := run_rehearse impatient []
  have hrun' := run_rehearse impatient givenUp
  obtain ⟨a, ha, -⟩ := exists_react (rehearse impatient []).2 now
    (.start (pos 0) (pos 0) (Device.standard.inSession 2).info)
  obtain ⟨a', ha', -⟩ := exists_react (rehearse impatient givenUp).2 now
    (.start (pos 0) (pos 0) (Device.standard.inSession 2).info)
  have hfilled : holesSeen a = [none, some (span 1 2)] := of_decide_eq_true
    (of_handle (P := fun b => holesSeen b = [none, some (span 1 2)]) ha (by decide))
  have hleft : holesSeen a' = [none, none] := of_decide_eq_true
    (of_handle (P := fun b => holesSeen b = [none, none]) ha' (by decide))
  have hsame := hall _ _ _ _ _ _ _ _ a a' hrun hrun' (by decide) (by decide) ha ha' nextSession
  rw [holesSeen, hsame, ← holesSeen, hleft] at hfilled
  cases hfilled

end Logbook.Reconciler
