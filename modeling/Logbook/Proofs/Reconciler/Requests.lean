import Logbook.Proofs.Reconciler.Abandoned

/-!
# When something is asked for

A reconciler asks for records on two occasions only: a caller starts a transfer, or a record that is
pushed shows a hole in a log that is complete. A hole is asked for only when none is out any more,
so the one that was out before was filled, cancelled or given up.

- `Reconciler.Asks`, `Reconciler.Step.asks`: what a rule asks for.
- `Moment.fills`, `Moment.cancels`, `Moment.Ends`: how the filling of a hole ends.
- `Reconciler.Step.ends`: a hole that is out stays out until then.
- `Reconciler.Run.out_or_ended`: so every hole of the past is still out, or ended since.
- `Reconciler.Disciplined`: what a reaction may ask for, and how the state may change over it.
- `Reconciler.disciplined_after_run`: every reaction after every run is disciplined.
-/

namespace Logbook

open Rehearsal Script

/-! ## The end of a hole -/

/-- The caller starts a transfer. -/
def Stimulus.isStart : Stimulus → Bool
  | .event _ ⟨_, .start ..⟩ => true
  | _ => false

namespace Moment

/-- A record of the bulk channel is the last one that the request counts on. -/
def fills (m : Moment) : Bool :=
  match m.stimulus, m.before.journal.current with
  | .event _ ⟨_, .bulk x⟩, some s => (s.receiveBulk x).progress.isComplete
  | _, _ => false

/-- Whatever is out is cancelled: by the caller, who says so, starts a transfer or drops the
journal, or for want of the device, which is lost or in another session. -/
def cancels (m : Moment) : Bool :=
  match m.stimulus with
  | .event _ ⟨_, .link connected⟩ => !connected
  | .event _ ⟨_, .cursor _ info⟩ => !m.before.journal.isIn info.id
  | .event _ ⟨_, .bulk _⟩ => false
  | .event _ ⟨_, .start ..⟩ | .event _ ⟨_, .cancel⟩ | .reset => true

/-- The filling of a hole ends. -/
structure Ends (m : Moment) (gap : Span) : Prop where
  out : m.before.backfill = some gap
  gone : m.after.next.backfill ≠ some gap
  cause : m.fills ∨ m.cancels ∨ m.abandons? = some gap

end Moment

namespace Reconciler

variable {r q : Reconciler} {s t : Session} {u : Stimulus} {a : Reaction} {sent : List Outbound}
  {past later earlier : List Moment} {m : Moment} {gap : Span} {x : Record}
  {info : SessionInfo} {device : DeviceId} {policy : Policy}

/-! ## What is asked for -/

/-- What is asked for: the span of a transfer, or a hole. -/
inductive Asks (r : Reconciler) : Stimulus → Reconciler → List Span → Prop
  | nothing {u : Stimulus} {q : Reconciler} : Asks r u q []
  | transfer {now : Instant} {first last : Position} {info : SessionInfo} {q : Reconciler}
      {span : Span} (hordered : span.Ordered) (hset : span.last.IsSet) :
      Asks r (.event now ⟨r.device, .start first last info⟩) q [span]
  | hole {now : Instant} {x : Record} {info : SessionInfo} {s t : Session} {p q : Reconciler}
      {gap : Span} (hs : r.journal.current = some s) (hid : s.id = info.id)
      (hst : r.state.isComplete) (hclear : Cleared r (s.receiveCursor x) t p)
      (hgap : p.repairable? (s.receiveCursor x).status = some gap)
      (hq : q = { p.enter (t.asked gap x.position.next) with backfill := some gap }) :
      Asks r (.event now ⟨r.device, .cursor x info⟩) q [gap]

/-- **A rule asks for one span at most.** -/
theorem Step.asks (h : Step r u q sent) : Asks r u q (requestsOf sent) := by
  cases h with
  | ignored | disconnected | noticed | left | ticked | filling | late | dropped => exact .nothing
  | stalled | settled | delivered | fetched | unneeded | cancelled =>
    rw [requestsOf_announce]
    exact .nothing
  | filled | added =>
    rw [requestsOf_refreshSent]
    exact .nothing
  | covered _ hneed | asked _ hneed =>
    obtain ⟨hordered, rfl, hset⟩ := ordered_of_needed? hneed
    show Asks r _ _ (_ :: requestsOf (r.announce _))
    rw [requestsOf_announce]
    exact .transfer hordered hset
  | repaired hs hid hst hclear hgap => exact .hole hs hid hst hclear hgap rfl
  | reset =>
    split
    · exact .nothing
    · rw [requestsOf_announce]
      exact .nothing

theorem Asks.length_le_one {spans : List Span} (h : Asks r u q spans) : spans.length ≤ 1 := by
  cases h with
  | nothing => exact Nat.zero_le 1
  | transfer | hole => exact Nat.le_refl 1

/-- Whatever the caller wants, the bounds of what is asked for are in order and set. -/
theorem Asks.ordered {spans : List Span} (h : Asks r u q spans) :
    ∀ span ∈ spans, span.Ordered ∧ span.last.IsSet := by
  cases h with
  | nothing => exact List.forall_mem_nil _
  | transfer hordered hset => exact List.forall_mem_singleton.mpr ⟨hordered, hset⟩
  | hole _ _ _ _ hgap =>
    obtain ⟨-, _, _, -, -, hfirst, hset⟩ := repairable?_eq_some hgap
    exact List.forall_mem_singleton.mpr ⟨hfirst.ordered, hset⟩

theorem Asks.eq_nil {spans : List Span} (h : Asks r u q spans) (hstart : ¬ u.isStart)
    (hbroadcast : ¬ u.isBroadcast) : spans = [] := by
  cases h with
  | nothing => rfl
  | transfer => exact absurd rfl hstart
  | hole => exact absurd rfl hbroadcast

/-! ## What was out -/

/-- What lies beyond a hole is another one. -/
theorem Beyond.backfill_ne (h : Beyond r gap.last) (hordered : gap.Ordered) :
    r.backfill ≠ some gap := by
  intro hstill
  exact Nat.not_lt.mpr hordered (h.backfill gap hstill)

/-- The hole that is out is given up over a pushed record only if the bulk channel was silent for
too long. -/
theorem Cleared.isStalled (h : Cleared r s t q) (hgap : r.backfill = some gap) : s.isStalled := by
  cases h with
  | free hfree =>
    rw [hfree] at hgap
    cases hgap
  | givenUp _ hstalled => exact hstalled

theorem abandons?_of_isStalled {now : Instant} (hs : r.journal.current = some s)
    (hid : s.id = info.id) (hstalled : (s.receiveCursor x).isStalled) :
    Moment.abandons? ⟨r, .event now ⟨device, .cursor x info⟩, a⟩ = r.backfill := by
  unfold Moment.abandons?
  dsimp only
  rw [hs]
  exact if_pos ⟨hid, hstalled⟩

/-- A hole that is out when the next one is looked for is given up. The one that is asked for in its
place is another one. -/
theorem Cleared.ends {now : Instant} (hclear : Cleared r (s.receiveCursor x) t q)
    (hout : Outstanding r) (hconfined : Confined r) (hgap : r.backfill = some gap)
    (hs : r.journal.current = some s) (hid : s.id = info.id)
    (h : Step r (.event now ⟨device, .cursor x info⟩) a.next a.sent) :
    Moment.Ends ⟨r, .event now ⟨device, .cursor x info⟩, a⟩ gap := by
  have hstalled := hclear.isStalled hgap
  have hbeyond := h.gives_up hout hconfined hgap hs hid hstalled
  have habandons : Moment.abandons? ⟨r, .event now ⟨device, .cursor x info⟩, a⟩ = some gap := by
    rw [abandons?_of_isStalled hs hid hstalled]
    exact hgap
  exact ⟨hgap, hbeyond.backfill_ne (hconfined gap hgap).1, .inr (.inr habandons)⟩

/-- **A hole that is out stays out or ends.** -/
theorem Step.ends (hout : Outstanding r) (hconfined : Confined r) (hgap : r.backfill = some gap)
    (h : Step r u a.next a.sent) : a.next.backfill = some gap ∨ Moment.Ends ⟨r, u, a⟩ gap := by
  obtain ⟨q, sent, notes⟩ := a
  cases h with
  | ignored | noticed | ticked | stalled => exact .inl hgap
  | delivered | fetched | filling | added | late | cancelled => exact .inl hgap
  | disconnected | unneeded | covered | asked | dropped | reset =>
    exact .inr ⟨hgap, nofun, .inr (.inl rfl)⟩
  | left _ hout =>
    refine .inr ⟨hgap, nofun, .inr (.inl ?_)⟩
    unfold Moment.cancels
    dsimp only
    rw [hout]
    rfl
  | filled hs _ _ hdone =>
    refine .inr ⟨hgap, nofun, .inl ?_⟩
    rw [Moment.fills, hs]
    exact hdone
  | settled hs hid hst hclear hrepair =>
    exact .inr (hclear.ends hout hconfined hgap hs hid (.settled hs hid hst hclear hrepair))
  | repaired hs hid hst hclear hrepair =>
    exact .inr (hclear.ends hout hconfined hgap hs hid (.repaired hs hid hst hclear hrepair))

/-- **Every hole that was out in the past is still out, or ended since.** -/
theorem Run.out_or_ended (h : Run (begin device policy) past r)
    (hpast : past = later ++ m :: earlier) (hgap : m.after.next.backfill = some gap) :
    r.backfill = some gap ∨ ∃ e ∈ later, e.Ends gap := by
  induction h generalizing later with
  | start => exact absurd hpast (by simp)
  | refused _ _ ih => exact ih hpast
  | @reacted past r u a h hu ih =>
    cases later with
    | nil =>
      obtain ⟨rfl, -⟩ := List.cons.inj hpast
      exact .inl hgap
    | cons last later =>
      obtain ⟨rfl, hrest⟩ := List.cons.inj hpast
      rcases ih hrest with hout | ⟨e, he, hend⟩
      · have hends := (step_of_apply hu).ends (outstanding_after_run h) h.confined hout
        exact hends.imp_right fun hend => ⟨_, List.mem_cons_self, hend⟩
      · exact .inr ⟨e, List.mem_cons_of_mem _ he, hend⟩

/-! ## How the state goes over -/

/-- How the state goes over into the next one. -/
inductive Turns (r : Reconciler) (u : Stimulus) (q : Reconciler) (sent : List Outbound) : Prop
  /-- It stays as it is. -/
  | stays (h : q.state = r.state)
  /-- The link goes down. -/
  | lost (h : q.state = .unavailable)
  /-- A transfer is needed. -/
  | needed (h : q.state = .transferNeeded) (hwhy : r.state = .unavailable → u.isBroadcast)
  /-- A transfer goes on. -/
  | counts (hst : r.state.isInProgress) (h : q.state.isInProgress)
  /-- A transfer is asked for. -/
  | asks {span : Span} (hu : u.isStart) (h : q.state.isInProgress)
      (hsent : sent = ⟨r.device, .request span⟩ :: r.announce q.state)
  /-- The state is taken from the current session. -/
  | completes {t : Session} (ht : q.journal.current = some t) (h : q.state = .ofStatus t.status)
      (hwhy : r.state = .unavailable → u.isStart)

/-- A state that is brought up to date is taken from the session, or stays as it is. -/
theorem turns_refreshed {p : Reconciler} (hstate : p.state = r.state)
    (ht : p.journal.current = some t) (hst : r.state.isComplete) :
    Turns r u (p.refreshed t.status) sent := by
  cases hgap : p.repairable? t.status with
  | none =>
    refine .completes ht (state_refreshed_of_none hgap) ?_
    intro he
    rw [he] at hst
    cases hst
  | some gap => exact .stays ((state_refreshed_of_some hgap).trans hstate)

/-- **Every rule leads to a state in one of these ways.** -/
theorem Step.turns (h : Step r u q sent) : Turns r u q sent := by
  have hthere (hst : r.state.isInProgress ∨ r.state.isComplete) :
      r.state = .unavailable → u.isStart := by
    intro he
    rw [he] at hst
    rcases hst with hst | hst <;> cases hst
  cases h with
  | ignored | ticked | filling | late | dropped => exact .stays rfl
  | disconnected => exact .lost rfl
  | noticed => exact .needed rfl fun _ => rfl
  | left => exact .needed rfl fun _ => rfl
  | stalled _ _ hst | fetched _ hst | cancelled _ hst =>
    exact .completes rfl rfl (hthere (.inl hst))
  | settled _ _ hst hclear =>
    cases hclear <;> exact .completes rfl rfl (hthere (.inr hst))
  | repaired _ _ _ hclear => exact .stays hclear.current.2.2.1
  | delivered _ hst => exact .counts hst rfl
  | @filled _ x s _ _ hst => exact turns_refreshed (t := (s.receiveBulk x).finish) rfl rfl hst
  | added _ hst => exact turns_refreshed rfl rfl hst
  | unneeded | covered => exact .completes rfl rfl fun _ => rfl
  | asked => exact .asks rfl rfl rfl
  | reset =>
    by_cases hst : r.state.isUnavailable
    · exact .stays (if_pos hst)
    · refine .needed (if_neg hst) ?_
      intro he
      exact absurd (UploadState.isUnavailable_iff.mpr he) hst

/-! ## Discipline -/

/-- At the moment after the past, a hole is asked for over a pushed record. -/
structure Repairs (policy : Policy) (past : List Moment) (m : Moment) (gap : Span) : Prop where
  on : policy.backfillOnGap
  /-- The device is in the current session. -/
  cursor : ∃ now x info, m.stimulus = .event now ⟨m.before.device, .cursor x info⟩ ∧
    m.before.journal.isIn info.id
  complete : m.before.state.isComplete
  state : m.after.next.state = m.before.state
  /-- The current session has no record of the hole, not even with the one that is pushed. -/
  missing : ∀ p ∈ gap, ¬ m.after.next.holds p
  /-- Every hole that was out in the past ended since, at the latest over this record. -/
  ended : ∀ later m' earlier gap', past = later ++ m' :: earlier →
    m'.after.next.backfill = some gap' → ∃ e ∈ m :: later, e.Ends gap'

/-- What a reaction at the moment after the past may ask for, and how the state may change. -/
structure Disciplined (policy : Policy) (past : List Moment) (m : Moment) : Prop where
  single : (requestsOf m.after.sent).length ≤ 1
  cause : ∀ span ∈ requestsOf m.after.sent,
    m.stimulus.isStart ∨ Repairs policy past m span
  /-- Neither the loss of the link or of the journal, nor a record of the bulk channel, nor a
  cancellation asks for anything. -/
  quiet : ¬ m.stimulus.isStart → ¬ m.stimulus.isBroadcast → requestsOf m.after.sent = []
  /-- A transfer begins with a request, before the new state is told. -/
  begins : ¬ m.before.state.isInProgress → m.after.next.state.isInProgress →
    m.stimulus.isStart ∧ ∃ span, m.after.sent =
      [⟨m.before.device, .request span⟩, ⟨m.before.device, .state m.after.next.state⟩]
  /-- Only a record that is pushed or the start of a transfer shows that the device is there. -/
  leaves : m.before.state = .unavailable → m.after.next.state ≠ .unavailable →
    m.stimulus.isStart ∨ m.stimulus.isBroadcast ∧ m.after.next.state = .transferNeeded
  lost : ∀ now device, m.stimulus = .event now ⟨device, .link false⟩ →
    m.after.next.state = .unavailable

theorem Turns.begins (h : Turns r u q sent) (hst : ¬ r.state.isInProgress)
    (hbegins : q.state.isInProgress) :
    u.isStart ∧ ∃ span, sent = [⟨r.device, .request span⟩, ⟨r.device, .state q.state⟩] := by
  cases h with
  | stays hstate =>
    rw [hstate] at hbegins
    exact absurd hbegins hst
  | lost hstate | needed hstate | completes _ hstate =>
    rw [hstate] at hbegins
    cases hbegins
  | counts hrunning => exact absurd hrunning hst
  | @asks span hu _ hsent =>
    refine ⟨hu, span, ?_⟩
    rw [hsent, announce_of_ne fun he => hst (he ▸ hbegins)]

theorem Turns.leaves (h : Turns r u q sent) (hst : r.state = .unavailable)
    (hleaves : q.state ≠ .unavailable) :
    u.isStart ∨ u.isBroadcast ∧ q.state = .transferNeeded := by
  cases h with
  | stays hstate => exact absurd (hstate.trans hst) hleaves
  | lost hstate => exact absurd hstate hleaves
  | needed hstate hwhy => exact .inr ⟨hwhy hst, hstate⟩
  | counts hrunning =>
    rw [hst] at hrunning
    cases hrunning
  | asks hu => exact .inl hu
  | completes _ _ hwhy => exact .inl (hwhy hst)

/-- When the link goes down, the device is not there any more. -/
theorem Step.lost {now : Instant} (h : Step r (.event now ⟨device, .link false⟩) q sent) :
    q.state = .unavailable := by
  cases h with
  | ignored hquiet =>
    rcases hquiet with he | hst
    · cases he
    · exact hst
  | disconnected => rfl

/-- What is asked for over a pushed record is missing, and whatever hole was out before has
ended. -/
theorem Run.repairs {now : Instant} {p : Reconciler} (h : Run (begin device policy) past r)
    (hs : r.journal.current = some s) (hid : s.id = info.id) (hst : r.state.isComplete)
    (hclear : Cleared r (s.receiveCursor x) t p)
    (hgap : p.repairable? (s.receiveCursor x).status = some gap)
    (hnext : a.next = { p.enter (t.asked gap x.position.next) with backfill := some gap })
    (hstep : Step r (.event now ⟨r.device, .cursor x info⟩) a.next a.sent) :
    Repairs policy past ⟨r, .event now ⟨r.device, .cursor x info⟩, a⟩ gap := by
  obtain ⟨hcurrent, -, hstate, -, hsame, -, -⟩ := hclear.current
  obtain ⟨hon, t', span, ht', -, hfirst, -⟩ := repairable?_eq_some hgap
  obtain rfl := Option.some_inj.mp (ht'.symm.trans hcurrent)
  constructor
  · rw [← h.backfillOnGap, ← hsame]
    exact hon
  · exact ⟨now, x, info, rfl, isIn_iff.mpr ⟨s, hs, hid⟩⟩
  · exact hst
  · dsimp only
    rw [hnext]
    exact hstate
  · intro p hp hheld
    dsimp only at hheld
    rw [hnext, holds_of_current rfl] at hheld
    exact hfirst.not_held p hp hheld
  · intro later m earlier gap' hpast hout
    rcases h.out_or_ended hpast hout with hstill | ⟨e, he, hend⟩
    · exact ⟨_, List.mem_cons_self,
        hclear.ends (outstanding_after_run h) h.confined hstill hs hid hstep⟩
    · exact ⟨e, List.mem_cons_of_mem _ he, hend⟩

/-- Whatever is asked for has a cause. -/
theorem Run.cause (h : Run (begin device policy) past r) (hstep : Step r u a.next a.sent) :
    ∀ span ∈ requestsOf a.sent, u.isStart ∨ Repairs policy past ⟨r, u, a⟩ span := by
  intro span hspan
  have hasks := hstep.asks
  generalize requestsOf a.sent = spans at hasks hspan
  cases hasks with
  | nothing => cases hspan
  | transfer => exact .inl rfl
  | hole hs hid hst hclear hgap hnext =>
    obtain rfl := List.mem_singleton.mp hspan
    exact .inr (h.repairs hs hid hst hclear hgap hnext hstep)

/-- **Every reaction after every run is disciplined.** It asks for one span at most: for that of a
transfer that is started, or, if holes are filled at all, for a hole over a record of the current
session that is pushed while the log is complete. Every hole that was out before has been filled,
cancelled or given up by then, the state stays as it was, and all of the new one is missing. A
transfer begins with a request only; "unavailable" is left over a pushed record or the start of a
transfer only; and whenever the link goes down, "unavailable" is what comes of it. -/
theorem disciplined_after_run (h : Run (begin device policy) past r) :
    (∀ u a, r.apply u = .ok a → Disciplined policy past ⟨r, u, a⟩) ∧
      ∀ now, ∃ a, r.handle now ⟨device, .link false⟩ = .ok a ∧ a.next.state = .unavailable := by
  constructor
  · intro u a ha
    have hstep := step_of_apply ha
    constructor
    · exact hstep.asks.length_le_one
    · exact h.cause hstep
    · exact hstep.asks.eq_nil
    · exact hstep.turns.begins
    · exact hstep.turns.leaves
    · rintro now device rfl
      exact hstep.lost
  · intro now
    obtain ⟨a, ha, hstep⟩ := exists_react r now (.link false)
    have hdevice : r.device = device := congrArg Prod.fst h.settings
    rw [hdevice] at ha
    exact ⟨a, ha, hstep.lost⟩

/-- Over one and the same record, the hole at 1 is given up and the next one is asked for. -/
theorem disciplined_over_fifth :
    ∃ past r a, Run (begin Device.standard.id impatient) past r ∧ r.backfill = some (span 1 1) ∧
      r.apply fifth = .ok a ∧ requestsOf a.sent = [span 3 4] ∧
      Disciplined impatient past ⟨r, fifth, a⟩ ∧
      ∃ b, r.handle now ⟨Device.standard.id, .link false⟩ = .ok b ∧
        b.next.state = .unavailable := by
  have hrun := run_rehearse impatient holeAtOne
  obtain ⟨hdisciplined, hlost⟩ := disciplined_after_run hrun
  obtain ⟨a, ha, -⟩ := exists_react (rehearse impatient holeAtOne).2 now
    (.cursor (Device.record (pos 5)) Device.standard.info)
  have hrequest : requestsOf a.sent = [span 3 4] := of_decide_eq_true
    (of_handle (P := fun b => requestsOf b.sent = [span 3 4]) ha (by decide))
  exact ⟨_, _, a, hrun, by decide, ha, hrequest, hdisciplined fifth a ha, hlost now⟩

end Reconciler

end Logbook
