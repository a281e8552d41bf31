import Logbook.Proofs.Reconciler.Operations

/-!
# The steps of a reconciler

What can happen to a reconciler is an event or the loss of its journal. `Step` lists what can come
of it, one rule for each outcome, with the facts under which it is the outcome, the reconciler
afterwards and all that is sent. Invariants are proved over these rules; the handlers are opened
once, here.

- `Stimulus`, `Reconciler.apply`: what happens, and the reaction to it.
- `Reconciler.Step`: the rules.
- `Reconciler.step_of_apply`: every reaction follows a rule.
- `Reconciler.exists_react`: an event at the reconciler's own device always gets a reaction.
-/

namespace Logbook

/-- What can happen to a reconciler. -/
inductive Stimulus
  /-- An event comes in at a time. -/
  | event (now : Instant) (m : Inbound)
  /-- The journal is dropped. -/
  | reset
deriving DecidableEq

namespace Reconciler

/-- The reaction to what happens. -/
def apply (r : Reconciler) : Stimulus → Except Error Reaction
  | .event now m => r.handle now m
  | .reset => .ok r.reset

/-! ## The rules -/

/-- The event is one that nothing comes of. -/
def Ignores (r : Reconciler) : Event → Prop
  | .link connected => connected = true ∨ r.state = .unavailable
  | .cursor .. => r.state = .transferNeeded
  | .bulk _ => r.journal.current = none
  | .start .. => False
  | .cancel => if r.state.isInProgress then r.journal.current = none else r.backfill = none

/-- The reconciler with a given session as the current one and no hole out. -/
def opened (r : Reconciler) (info : SessionInfo) (last : Position) (now : Instant) : Reconciler :=
  { r with journal := r.journal.ensure info last now.notBeforeEpoch, backfill := none }

/-- After a record of the cursor channel made the current session `s` while the log is complete,
no hole is out: there was none, or the one that was is given up. -/
inductive Cleared (r : Reconciler) (s : Session) : Session → Reconciler → Prop
  | free (hfree : r.backfill = none) : Cleared r s s (r.enter s)
  | givenUp {gap : Span} (hgap : r.backfill = some gap) (hstalled : s.isStalled) :
      Cleared r s s.finish
        { r.enter s.finish with backfill := none, floor := max r.floor gap.last.next }

/-- What comes of a stimulus: the reconciler afterwards, and what is sent. -/
inductive Step (r : Reconciler) : Stimulus → Reconciler → List Outbound → Prop
  /-- Nothing comes of the event. -/
  | ignored {now : Instant} {e : Event} (h : r.Ignores e) : Step r (.event now ⟨r.device, e⟩) r []
  /-- The link goes down. -/
  | disconnected {now : Instant} (h : r.state ≠ .unavailable) :
      Step r (.event now ⟨r.device, .link false⟩)
        { r with
          journal := r.journal.update Session.forgetCursor
          backfill := none
          state := .unavailable }
        [⟨r.device, .state .unavailable⟩]
  /-- The device shows that it is there. -/
  | noticed {now : Instant} {x : Record} {info : SessionInfo} (h : r.state = .unavailable) :
      Step r (.event now ⟨r.device, .cursor x info⟩) { r with state := .transferNeeded }
        [⟨r.device, .state .transferNeeded⟩]
  /-- The device is in another session. -/
  | left {now : Instant} {x : Record} {info : SessionInfo}
      (hst : r.state.isInProgress ∨ r.state.isComplete) (hout : r.journal.isIn info.id = false) :
      Step r (.event now ⟨r.device, .cursor x info⟩)
        { r with backfill := none, floor := .zero, state := .transferNeeded }
        [⟨r.device, .state .transferNeeded⟩]
  /-- A record of the cursor channel comes while a request is out. -/
  | ticked {now : Instant} {x : Record} {info : SessionInfo} {s : Session}
      (hs : r.journal.current = some s) (hid : s.id = info.id)
      (hst : r.state.isInProgress ∨ r.state.isComplete ∧ r.backfill.isSome)
      (hlive : ¬ (s.receiveCursor x).isStalled) :
      Step r (.event now ⟨r.device, .cursor x info⟩) (r.enter (s.receiveCursor x)) []
  /-- The transfer ends because the bulk channel is silent. -/
  | stalled {now : Instant} {x : Record} {info : SessionInfo} {s : Session}
      (hs : r.journal.current = some s) (hid : s.id = info.id) (hst : r.state.isInProgress)
      (hstalled : (s.receiveCursor x).isStalled) :
      Step r (.event now ⟨r.device, .cursor x info⟩)
        { r.enter (s.receiveCursor x).finish with state := .ofStatus (s.receiveCursor x).status }
        (r.announce (.ofStatus (s.receiveCursor x).status))
  /-- A record of the cursor channel comes while the log is complete, and no hole is left. -/
  | settled {now : Instant} {x : Record} {info : SessionInfo} {s t : Session} {q : Reconciler}
      (hs : r.journal.current = some s) (hid : s.id = info.id) (hst : r.state.isComplete)
      (hclear : Cleared r (s.receiveCursor x) t q)
      (hgap : q.repairable? (s.receiveCursor x).status = none) :
      Step r (.event now ⟨r.device, .cursor x info⟩)
        { q with state := .ofStatus (s.receiveCursor x).status }
        (r.announce (.ofStatus (s.receiveCursor x).status))
  /-- A record of the cursor channel comes while the log is complete, and a hole is asked for. -/
  | repaired {now : Instant} {x : Record} {info : SessionInfo} {s t : Session} {q : Reconciler}
      {gap : Span} (hs : r.journal.current = some s) (hid : s.id = info.id)
      (hst : r.state.isComplete) (hclear : Cleared r (s.receiveCursor x) t q)
      (hgap : q.repairable? (s.receiveCursor x).status = some gap) :
      Step r (.event now ⟨r.device, .cursor x info⟩)
        { q.enter (t.asked gap x.position.next) with backfill := some gap }
        [⟨r.device, .request gap⟩]
  /-- A record of the bulk channel comes, and the transfer goes on. -/
  | delivered {now : Instant} {x : Record} {s : Session} (hs : r.journal.current = some s)
      (hst : r.state.isInProgress) (hopen : (s.receiveBulk x).progress.isComplete = false) :
      Step r (.event now ⟨r.device, .bulk x⟩)
        { r.enter (s.receiveBulk x) with
          state := .inProgress (s.receiveBulk x).progress.transferred
            (s.receiveBulk x).progress.requested }
        (r.announce (.inProgress (s.receiveBulk x).progress.transferred
          (s.receiveBulk x).progress.requested))
  /-- A record of the bulk channel ends the transfer. -/
  | fetched {now : Instant} {x : Record} {s : Session} (hs : r.journal.current = some s)
      (hst : r.state.isInProgress) (hdone : (s.receiveBulk x).progress.isComplete) :
      Step r (.event now ⟨r.device, .bulk x⟩)
        { r.enter (s.receiveBulk x).finish with state := .ofStatus (s.receiveBulk x).status }
        (r.announce (.ofStatus (s.receiveBulk x).status))
  /-- A record of the bulk channel comes, and the hole that is out stays out. -/
  | filling {now : Instant} {x : Record} {s : Session} {gap : Span}
      (hs : r.journal.current = some s) (hst : r.state.isComplete) (hgap : r.backfill = some gap)
      (hopen : (s.receiveBulk x).progress.isComplete = false) :
      Step r (.event now ⟨r.device, .bulk x⟩) (r.enter (s.receiveBulk x)) []
  /-- A record of the bulk channel ends the request for the hole that is out. -/
  | filled {now : Instant} {x : Record} {s : Session} {gap : Span}
      (hs : r.journal.current = some s) (hst : r.state.isComplete) (hgap : r.backfill = some gap)
      (hdone : (s.receiveBulk x).progress.isComplete) :
      Step r (.event now ⟨r.device, .bulk x⟩)
        (refreshed { r.enter (s.receiveBulk x).finish with backfill := none }
          (s.receiveBulk x).status)
        (refreshSent { r.enter (s.receiveBulk x).finish with backfill := none }
          (s.receiveBulk x).status)
  /-- A record of the bulk channel comes while the log is complete and no hole is out. -/
  | added {now : Instant} {x : Record} {s : Session} (hs : r.journal.current = some s)
      (hst : r.state.isComplete) (hfree : r.backfill = none) :
      Step r (.event now ⟨r.device, .bulk x⟩)
        (refreshed (r.enter (s.receiveBulk x)) (s.receiveBulk x).status)
        (refreshSent (r.enter (s.receiveBulk x)) (s.receiveBulk x).status)
  /-- A record of the bulk channel comes when none is expected. -/
  | late {now : Instant} {x : Record} {s : Session} (hs : r.journal.current = some s)
      (hst : r.state = .unavailable ∨ r.state = .transferNeeded) :
      Step r (.event now ⟨r.device, .bulk x⟩) (r.enter (s.receiveBulk x)) []
  /-- The caller wants what is held already. -/
  | unneeded {now : Instant} {first last : Position} {info : SessionInfo} {s : Session}
      (hs : (r.opened info last now).journal.current = some s)
      (hneed : (r.opened info last now).journal.needed? first last = none) :
      Step r (.event now ⟨r.device, .start first last info⟩)
        { (r.opened info last now).enter s.finish with state := .ofStatus s.status }
        (r.announce (.ofStatus s.status))
  /-- The caller wants a transfer, of which nothing is missing. -/
  | covered {now : Instant} {first last : Position} {info : SessionInfo} {s : Session}
      {span : Span} (hs : (r.opened info last now).journal.current = some s)
      (hneed : (r.opened info last now).journal.needed? first last = some span)
      (hdone : (s.asked span span.last.next).progress.isComplete) :
      Step r (.event now ⟨r.device, .start first last info⟩)
        { (r.opened info last now).enter (s.asked span span.last.next).finish with
          state := .ofStatus s.status }
        (⟨r.device, .request span⟩ :: r.announce (.ofStatus s.status))
  /-- The caller wants a transfer. -/
  | asked {now : Instant} {first last : Position} {info : SessionInfo} {s : Session}
      {span : Span} (hs : (r.opened info last now).journal.current = some s)
      (hneed : (r.opened info last now).journal.needed? first last = some span)
      (hopen : (s.asked span span.last.next).progress.isComplete = false) :
      Step r (.event now ⟨r.device, .start first last info⟩)
        { (r.opened info last now).enter (s.asked span span.last.next) with
          state := .inProgress 0 (.ofNat span.size) }
        (⟨r.device, .request span⟩ :: r.announce (.inProgress 0 (.ofNat span.size)))
  /-- The caller gives up the transfer. -/
  | cancelled {now : Instant} {s : Session} (hs : r.journal.current = some s)
      (hst : r.state.isInProgress) :
      Step r (.event now ⟨r.device, .cancel⟩)
        { r.enter s.finish with state := .ofStatus s.status }
        (r.announce (.ofStatus s.status))
  /-- The caller gives up the hole that is out. -/
  | dropped {now : Instant} {gap : Span} (hst : ¬ r.state.isInProgress)
      (hgap : r.backfill = some gap) :
      Step r (.event now ⟨r.device, .cancel⟩)
        { r with journal := r.journal.update Session.finish, backfill := none } []
  /-- The journal is dropped. -/
  | reset :
      Step r .reset
        { r with
          journal := r.journal.clear
          backfill := none
          floor := .zero
          state := if r.state.isUnavailable then r.state else .transferNeeded }
        (if r.state.isUnavailable then [] else r.announce .transferNeeded)

/-! ## Reactions follow the rules -/

section Handlers

variable {r : Reconciler} {s : Session} {a : Reaction} {now : Instant}

theorem step_onLink (connected : Bool) :
    Step r (.event now ⟨r.device, .link connected⟩) (r.onLink connected).next
      (r.onLink connected).sent := by
  unfold onLink
  by_cases hquiet : (connected || r.state.isUnavailable) = true
  · rw [if_pos hquiet]
    rw [Bool.or_eq_true, UploadState.isUnavailable_iff] at hquiet
    exact .ignored hquiet
  · rw [if_neg hquiet, Reaction.next_andThen, Reaction.sent_andThen, next_publish, sent_publish,
      announce_of_ne]
    all_goals
      rw [Bool.or_eq_true, not_or, UploadState.isUnavailable_iff, Bool.not_eq_true] at hquiet
      obtain ⟨rfl, hst⟩ := hquiet
    · exact .disconnected hst
    · exact hst

theorem step_leaveSession {x : Record} {info : SessionInfo}
    (hst : r.state.isInProgress ∨ r.state.isComplete) (hout : r.journal.isIn info.id = false) :
    Step r (.event now ⟨r.device, .cursor x info⟩) (r.leaveSession info.id).next
      (r.leaveSession info.id).sent := by
  have hne : r.state ≠ .transferNeeded := by
    intro he
    rw [he] at hst
    rcases hst with h | h <;> cases h
  unfold leaveSession
  rw [Reaction.next_andThen, Reaction.sent_andThen, next_publish, sent_publish,
    announce_of_ne (by exact hne)]
  exact .left hst hout

theorem step_cursorInProgress {x : Record} {info : SessionInfo} (hs : r.journal.current = some s)
    (hid : s.id = info.id) (hst : r.state.isInProgress) :
    Step r (.event now ⟨r.device, .cursor x info⟩) (r.cursorInProgress s x).next
      (r.cursorInProgress s x).sent := by
  unfold cursorInProgress
  by_cases hstalled : (s.receiveCursor x).isStalled = true
  · have hcurrent := current_enter r (s.receiveCursor x)
    have hnext : (r.enter (s.receiveCursor x)).finish.next = _ := next_finish hcurrent
    have hsent : (r.enter (s.receiveCursor x)).finish.sent = _ := sent_finish hcurrent
    rw [if_pos hstalled]
    -- of the three parts of the reaction only the last one sends something
    show Step r _ (r.enter (s.receiveCursor x)).finish.next
      ([] ++ ([] ++ (r.enter (s.receiveCursor x)).finish.sent))
    rw [hnext, hsent]
    exact .stalled hs hid hst hstalled
  · rw [if_neg hstalled]
    exact .ticked hs hid (.inl hst) hstalled

/-- What is left of the current session once no hole is out is its store. -/
theorem Cleared.current {t : Session} {q : Reconciler} (h : Cleared r s t q) :
    q.journal.current = some t ∧ q.device = r.device ∧ q.state = r.state ∧ q.backfill = none ∧
      q.backfillOnGap = r.backfillOnGap ∧ t.store = s.store ∧ t.id = s.id := by
  cases h with
  | free hfree => exact ⟨rfl, rfl, rfl, hfree, rfl, rfl, rfl⟩
  | givenUp hgap hstalled => exact ⟨rfl, rfl, rfl, rfl, rfl, rfl, rfl⟩

/-- Once no hole is out, the next one is asked for or the state is brought up to date. -/
theorem step_repair {x : Record} {info : SessionInfo} {t : Session} {q : Reconciler}
    (hs : r.journal.current = some s) (hid : s.id = info.id) (hst : r.state.isComplete)
    (hclear : Cleared r (s.receiveCursor x) t q) :
    ∃ b, q.repair (s.receiveCursor x).status x.position = .ok b ∧
      Step r (.event now ⟨r.device, .cursor x info⟩) b.next b.sent := by
  obtain ⟨hcurrent, hdevice, hstate, -⟩ := hclear.current
  cases hgap : q.repairable? (s.receiveCursor x).status with
  | none =>
    refine ⟨_, repair_of_none hgap _, ?_⟩
    have hsent : q.announce (.ofStatus (s.receiveCursor x).status) =
        r.announce (.ofStatus (s.receiveCursor x).status) := by
      unfold announce
      rw [hstate, hdevice]
    rw [next_publish, sent_publish, hsent]
    exact .settled hs hid hst hclear hgap
  | some gap =>
    obtain ⟨b, hb, hnext, hsent⟩ := repair_of_some hcurrent hgap x.position
    refine ⟨b, hb, ?_⟩
    rw [hnext, hsent, hdevice]
    exact .repaired hs hid hst hclear hgap

/-- The last part of the reaction to a record that comes while the log is complete. -/
theorem step_tryThen_repair {x : Record} {info : SessionInfo} {t : Session} {taken : Reaction}
    (hs : r.journal.current = some s) (hid : s.id = info.id) (hst : r.state.isComplete)
    (hclear : Cleared r (s.receiveCursor x) t taken.next) (hsent : taken.sent = []) :
    ∃ b, taken.tryThen (·.repair (s.receiveCursor x).status x.position) = .ok b ∧
      Step r (.event now ⟨r.device, .cursor x info⟩) b.next b.sent := by
  have hrepair : ∃ b, taken.next.repair (s.receiveCursor x).status x.position = .ok b ∧
      Step r (.event now ⟨r.device, .cursor x info⟩) b.next b.sent :=
    step_repair hs hid hst hclear
  obtain ⟨b, hb, hstep⟩ := hrepair
  unfold Reaction.tryThen
  dsimp only
  rw [hb, hsent]
  exact ⟨_, rfl, hstep⟩

theorem step_cursorComplete {x : Record} {info : SessionInfo} (hs : r.journal.current = some s)
    (hid : s.id = info.id) (hst : r.state.isComplete) :
    ∃ b, r.cursorComplete s x = .ok b ∧
      Step r (.event now ⟨r.device, .cursor x info⟩) b.next b.sent := by
  -- the reaction as far as the record is taken and a stalled hole is given up
  generalize htaken : (if (s.receiveCursor x).isStalled then
      ((r.enter (s.receiveCursor x)).quiet (s.cursorNotes x)).andThen abandonBackfill
    else (r.enter (s.receiveCursor x)).quiet (s.cursorNotes x)) = taken
  have heq : r.cursorComplete s x =
      if taken.next.backfill.isSome then .ok taken
      else taken.tryThen (·.repair (s.receiveCursor x).status x.position) := by
    rw [← htaken]
    rfl
  rw [heq]
  cases hgap : r.backfill with
  | none =>
    -- there is nothing to give up, be the bulk channel silent or not
    have hquiet : (r.enter (s.receiveCursor x)).abandonBackfill =
        (r.enter (s.receiveCursor x)).quiet [] := by
      unfold abandonBackfill
      rw [backfill_enter, hgap]
    have hnext : taken.next = r.enter (s.receiveCursor x) := by
      rw [← htaken]
      split
      · rw [Reaction.next_andThen]
        exact congrArg Reaction.next hquiet
      · rfl
    have hsent : taken.sent = [] := by
      rw [← htaken]
      split
      · rw [Reaction.sent_andThen]
        exact congrArg Reaction.sent hquiet
      · rfl
    have hclear : Cleared r (s.receiveCursor x) (s.receiveCursor x) taken.next := by
      rw [hnext]
      exact .free hgap
    rw [if_neg (by rw [hnext, backfill_enter, hgap]; simp)]
    exact step_tryThen_repair hs hid hst hclear hsent
  | some gap =>
    by_cases hstalled : (s.receiveCursor x).isStalled = true
    -- the hole is given up, and the next one is looked for above it
    · have hgiven : (r.enter (s.receiveCursor x)).abandonBackfill =
          { r.enter (s.receiveCursor x) with
            floor := max r.floor gap.last.next }.dropBackfill [.backfillStalled r.device gap] := by
        unfold abandonBackfill
        rw [backfill_enter, hgap]
        rfl
      rw [if_pos hstalled] at htaken
      have hnext : taken.next = { r.enter (s.receiveCursor x).finish with
          backfill := none
          floor := max r.floor gap.last.next } := by
        rw [← htaken, Reaction.next_andThen]
        exact congrArg Reaction.next hgiven
      have hsent : taken.sent = [] := by
        rw [← htaken, Reaction.sent_andThen]
        exact congrArg Reaction.sent hgiven
      have hclear : Cleared r (s.receiveCursor x) (s.receiveCursor x).finish taken.next := by
        rw [hnext]
        exact .givenUp hgap hstalled
      rw [if_neg (by rw [hnext]; simp)]
      exact step_tryThen_repair hs hid hst hclear hsent
    -- the hole stays out, and no other one is looked for
    · rw [if_neg hstalled] at htaken
      subst htaken
      refine ⟨_, if_pos (by show r.backfill.isSome; rw [hgap]; rfl), ?_⟩
      exact .ticked hs hid (.inr ⟨hst, by rw [hgap]; rfl⟩) hstalled

theorem step_onCursor (x : Record) (info : SessionInfo) :
    ∃ b, r.onCursor x info = .ok b ∧
      Step r (.event now ⟨r.device, .cursor x info⟩) b.next b.sent := by
  unfold onCursor
  split
  · next hst =>
    refine ⟨_, rfl, ?_⟩
    rw [next_publish, sent_publish, announce_of_ne (by rw [hst]; simp)]
    exact .noticed hst
  · next hst => exact ⟨_, rfl, .ignored hst⟩
  · next s hst hs =>
    have hrun : r.state.isInProgress := by rw [hst]; rfl
    by_cases hid : s.id = info.id
    · rw [if_pos hid]
      exact ⟨_, rfl, step_cursorInProgress hs hid hrun⟩
    · rw [if_neg hid]
      exact ⟨_, rfl, step_leaveSession (.inl hrun) (by simp [Journal.isIn, hs, hid])⟩
  · next s hst hs =>
    have hdone : r.state.isComplete := by rw [hst]; rfl
    by_cases hid : s.id = info.id
    · rw [if_pos hid]
      exact step_cursorComplete hs hid hdone
    · rw [if_neg hid]
      exact ⟨_, rfl, step_leaveSession (.inr hdone) (by simp [Journal.isIn, hs, hid])⟩
  · next hs hunavailable hneeded =>
    -- without a session, that of the device is another one
    refine ⟨_, rfl, step_leaveSession ?_ (by simp [Journal.isIn, hs])⟩
    cases hst : r.state with
    | unavailable => exact absurd hst hunavailable
    | transferNeeded => exact absurd hst hneeded
    | inProgress => exact .inl rfl
    | complete => exact .inr rfl

theorem step_onBulk (x : Record) :
    Step r (.event now ⟨r.device, .bulk x⟩) (r.onBulk x).next (r.onBulk x).sent := by
  unfold onBulk
  split
  · next hs => exact .ignored hs
  · next s hs =>
    have hcurrent := current_enter r (s.receiveBulk x)
    dsimp only
    split
    -- a transfer is running
    · next hst =>
      have hrun : r.state.isInProgress := by rw [hst]; rfl
      split
      · next hdone =>
        have hnext : (r.enter (s.receiveBulk x)).finish.next = _ := next_finish hcurrent
        have hsent : (r.enter (s.receiveBulk x)).finish.sent = _ := sent_finish hcurrent
        show Step r _ (r.enter (s.receiveBulk x)).finish.next
          ([] ++ (r.enter (s.receiveBulk x)).finish.sent)
        rw [hnext, hsent]
        exact .fetched hs hrun hdone
      · next hopen =>
        rw [Reaction.next_andThen, Reaction.sent_andThen, next_publish, sent_publish]
        exact .delivered hs hrun (Bool.not_eq_true _ ▸ hopen)
    -- the log is complete
    · next hst =>
      have hcomplete : r.state.isComplete := by rw [hst]; rfl
      split
      · next hfree =>
        rw [Reaction.next_andThen, Reaction.sent_andThen, next_refresh, sent_refresh]
        exact .added hs hcomplete (Option.isNone_iff_eq_none.mp hfree)
      · next hgap =>
        obtain ⟨gap, hgap⟩ := Option.ne_none_iff_exists'.mp (mt Option.isNone_iff_eq_none.mpr hgap)
        split
        · next hdone =>
          rw [Reaction.next_andThen, Reaction.sent_andThen, next_refresh, sent_refresh]
          exact .filled hs hcomplete hgap hdone
        · next hopen =>
          exact .filling hs hcomplete hgap (Bool.not_eq_true _ ▸ hopen)
    -- no transfer has begun
    · next hst => exact .late hs (.inl hst)
    · next hst => exact .late hs (.inr hst)

/-! ### Transfers -/

theorem ordered_of_needed? {j : Journal} {first last : Position} {span : Span}
    (h : j.needed? first last = some span) :
    span.Ordered ∧ span.last = last ∧ last.IsSet := by
  unfold Journal.needed? at h
  split at h <;>
  · obtain ⟨rfl, hle, hset⟩ := Span.ofBounds?_eq_some.mp h
    exact ⟨hle, rfl, hset⟩

/-- After a session was opened it is the current one. -/
theorem exists_current_opened (r : Reconciler) (info : SessionInfo) (last : Position)
    (now : Instant) :
    ∃ s, (r.opened info last now).journal.current = some s ∧ s.id = info.id :=
  isIn_iff.mp (Journal.isIn_ensure r.journal info last now.notBeforeEpoch)

@[simp] theorem device_opened (r : Reconciler) (info : SessionInfo) (last : Position)
    (now : Instant) : (r.opened info last now).device = r.device := by
  show (r.journal.ensure info last now.notBeforeEpoch).device = r.journal.device
  unfold Journal.ensure
  split <;> rfl

/-- A request for a transfer ends at once if nothing is missing. -/
theorem requestTransfer_of_current {span : Span} (hs : r.journal.current = some s)
    (hspan : span.Ordered) :
    ∃ b, r.requestTransfer span = .ok b ∧
      if (s.asked span span.last.next).progress.isComplete then
        b.next = { r.enter (s.asked span span.last.next).finish with state := .ofStatus s.status } ∧
          b.sent = ⟨r.device, .request span⟩ :: r.announce (.ofStatus s.status)
      else
        b.next = { r.enter (s.asked span span.last.next) with
          state := .inProgress 0 (.ofNat span.size) } ∧
          b.sent = ⟨r.device, .request span⟩ :: r.announce (.inProgress 0 (.ofNat span.size)) := by
  have hcurrent := current_enter r (s.asked span span.last.next)
  have hrequest : s.requestTransfer span = .ok (s.asked span span.last.next) :=
    Session.request_of_ordered hspan _
  have heq : r.requestTransfer span =
      if (s.asked span span.last.next).progress.isComplete then
        .ok (Reaction.andThen ⟨r.enter (s.asked span span.last.next), [⟨r.device, .request span⟩],
          (s.asked span span.last.next).requestNotes span ++
            [.transferOut r.device span (s.asked span span.last.next).progress.expected]⟩ finish)
      else
        .ok (Reaction.andThen ⟨r.enter (s.asked span span.last.next), [⟨r.device, .request span⟩],
          (s.asked span span.last.next).requestNotes span ++
            [.transferOut r.device span (s.asked span span.last.next).progress.expected]⟩
          (·.publish (.inProgress 0 (.ofNat span.size)))) := by
    unfold requestTransfer
    rw [hs]
    show (s.requestTransfer span >>= fun s => _) = _
    rw [hrequest]
    rfl
  have hnext : (r.enter (s.asked span span.last.next)).finish.next = _ := next_finish hcurrent
  have hsent : (r.enter (s.asked span span.last.next)).finish.sent = _ := sent_finish hcurrent
  rw [heq]
  split
  · exact ⟨_, rfl, hnext, congrArg (_ :: ·) hsent⟩
  · refine ⟨_, rfl, ?_, ?_⟩
    · rw [Reaction.next_andThen, next_publish]
    · rw [Reaction.sent_andThen, sent_publish]
      rfl

/-- What is done for a transfer, with the session as it is then opened. -/
theorem onStart_eq (r : Reconciler) (first last : Position) (info : SessionInfo) (now : Instant) :
    r.onStart first last info now =
      match (r.opened info last now).journal.needed? first last with
      | some span =>
        ((r.opened info last now).quiet (r.journal.ensureNotes info)).tryThen
          (·.requestTransfer span)
      | none =>
        .ok (((r.opened info last now).quiet (r.journal.ensureNotes info)).andThen fun r =>
          (r.quiet [.nothingNeeded r.device]).andThen finish) := rfl

theorem step_onStart (first last : Position) (info : SessionInfo) :
    ∃ b, r.onStart first last info now = .ok b ∧
      Step r (.event now ⟨r.device, .start first last info⟩) b.next b.sent := by
  obtain ⟨s, hs, -⟩ := exists_current_opened r info last now
  have hannounce (st : UploadState) : (r.opened info last now).announce st = r.announce st := by
    unfold announce
    rw [device_opened]
    rfl
  rw [onStart_eq]
  cases hneed : (r.opened info last now).journal.needed? first last with
  | none =>
    refine ⟨_, rfl, ?_⟩
    show Step r _ (r.opened info last now).finish.next
      ([] ++ ([] ++ (r.opened info last now).finish.sent))
    rw [next_finish hs, sent_finish hs, hannounce]
    exact .unneeded hs hneed
  | some span =>
    obtain ⟨b, hb, hcases⟩ := requestTransfer_of_current hs (ordered_of_needed? hneed).1
    refine ⟨⟨b.next, [] ++ b.sent, r.journal.ensureNotes info ++ b.notes⟩, ?_, ?_⟩
    · unfold Reaction.tryThen
      dsimp only [quiet]
      rw [hb]
      rfl
    · show Step r _ b.next b.sent
      split at hcases
      · next hdone =>
        rw [hcases.1, hcases.2, device_opened, hannounce]
        exact .covered hs hneed hdone
      · next hopen =>
        rw [hcases.1, hcases.2, device_opened, hannounce]
        exact .asked hs hneed (Bool.not_eq_true _ ▸ hopen)

theorem step_onCancel :
    Step r (.event now ⟨r.device, .cancel⟩) r.onCancel.next r.onCancel.sent := by
  unfold onCancel
  split
  · next hst =>
    cases hs : r.journal.current with
    | none =>
      have hquiet : r.finish = r.quiet [] := by
        unfold finish status? Journal.status?
        rw [hs]
        rfl
      show Step r _ r.finish.next ([] ++ r.finish.sent)
      rw [hquiet]
      exact .ignored (by rw [Ignores, if_pos hst, hs])
    | some s =>
      show Step r _ r.finish.next ([] ++ r.finish.sent)
      rw [next_finish hs, sent_finish hs]
      exact .cancelled hs hst
  · next hst =>
    split
    · next hgap =>
      obtain ⟨gap, hgap⟩ := Option.isSome_iff_exists.mp hgap
      exact .dropped hst hgap
    · next hgap =>
      refine .ignored ?_
      rw [Ignores, if_neg hst]
      exact Option.not_isSome_iff_eq_none.mp hgap

theorem step_reset : Step r .reset r.reset.next r.reset.sent := by
  have hstep := Step.reset (r := r)
  unfold reset
  by_cases hst : r.state.isUnavailable = true
  · simp only [if_pos hst] at hstep ⊢
    exact hstep
  · simp only [if_neg hst] at hstep ⊢
    rw [Reaction.next_andThen, Reaction.sent_andThen, next_publish, sent_publish]
    exact hstep

/-- **An event at the reconciler's own device always gets a reaction**, and the reaction follows
a rule. -/
theorem exists_react (r : Reconciler) (now : Instant) (e : Event) :
    ∃ b, r.handle now ⟨r.device, e⟩ = .ok b ∧ Step r (.event now ⟨r.device, e⟩) b.next b.sent := by
  have hhandle : r.handle now ⟨r.device, e⟩ = (r.react now e).mapError .request := if_pos rfl
  rw [hhandle]
  cases e with
  | link connected => exact ⟨_, rfl, step_onLink connected⟩
  | cursor x info =>
    obtain ⟨b, hb, hstep⟩ := step_onCursor x info
    exact ⟨b, by rw [react, hb]; rfl, hstep⟩
  | bulk x => exact ⟨_, rfl, step_onBulk x⟩
  | start first last info =>
    obtain ⟨b, hb, hstep⟩ := step_onStart first last info
    exact ⟨b, by rw [react, hb]; rfl, hstep⟩
  | cancel => exact ⟨_, rfl, step_onCancel⟩

end Handlers

/-- **Every reaction follows a rule.** -/
theorem step_of_apply {r : Reconciler} {u : Stimulus} {a : Reaction} (h : r.apply u = .ok a) :
    Step r u a.next a.sent := by
  cases u with
  | event now m =>
    obtain ⟨device, e⟩ := m
    by_cases hdevice : device = r.device
    · subst hdevice
      obtain ⟨b, hb, hstep⟩ := exists_react r now e
      rw [apply, hb] at h
      cases h
      exact hstep
    -- an event for another device gets no reaction
    · rw [apply, handle, if_neg hdevice] at h
      cases h
  | reset =>
    cases h
    exact step_reset

end Reconciler

end Logbook
