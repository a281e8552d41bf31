import Logbook.Proofs.Reconciler.Run

/-!
# Outstanding requests

What a reconciler says about a request that is out is kept in three places: in the state that
callers see, in the hole that is being filled, and in the accounts of the current session. They
agree after every run.

- `Session.Awaiting`: the accounts of a request that is out.
- `Reconciler.Leaves`: the rules again, sorted by what is out after them.
- `Reconciler.Outstanding`: how the three places agree.
- `Reconciler.Outstanding.step`: every rule keeps them in agreement.
- `Reconciler.outstanding_after_run`: so they agree after every run.
-/

namespace Logbook

/-! ## The accounts of a request that is out -/

theorem Progress.lt_of_open {p : Progress} (h : p.isComplete = false) :
    p.transferred < p.expected := UInt32.not_le.mp (of_decide_eq_false h)

namespace Session

/-- A request is out: fewer records have come than were missing, and the bulk channel may stay
silent for at least one more tick. -/
structure Awaiting (s : Session) : Prop where
  short : s.progress.transferred < s.progress.expected
  within : s.progress.expected ≤ s.progress.requested
  patient : 1 ≤ s.patience

variable {s : Session}

theorem isStalled_iff : s.isStalled ↔ s.patience = 0 := decide_eq_true_iff

/-- A request of which something is missing is out. -/
theorem awaiting_asked {span : Span} {p : Position}
    (hopen : (s.asked span p).progress.isComplete = false) : (s.asked span p).Awaiting where
  short := Progress.lt_of_open hopen
  within := by
    show Counter.ofNat _ ≤ Counter.ofNat _
    have hle := s.store.card_missing_le span
    rw [UInt32.le_iff_toNat_le, Counter.toNat_ofNat, Counter.toNat_ofNat]
    omega
  patient := Counter.one_le_of_ne_zero s.tolerance.ticks_ne_zero

/-- The cursor channel leaves a request out, unless it takes the last tick. -/
theorem Awaiting.receiveCursor (h : s.Awaiting) {x : Record}
    (hlive : ¬ (s.receiveCursor x).isStalled) : (s.receiveCursor x).Awaiting where
  short := by
    rw [progress_receiveCursor]
    exact h.short
  within := by
    rw [progress_receiveCursor]
    exact h.within
  patient := Counter.one_le_of_ne_zero (mt isStalled_iff.mpr hlive)

/-- The bulk channel leaves a request out, unless it brings the last record that counts. -/
theorem Awaiting.receiveBulk (h : s.Awaiting) {x : Record}
    (hopen : (s.receiveBulk x).progress.isComplete = false) : (s.receiveBulk x).Awaiting where
  short := Progress.lt_of_open hopen
  within := by
    rw [expected_receiveBulk, requested_receiveBulk]
    exact h.within
  patient := by
    rw [patience_receiveBulk]
    split
    · exact Counter.one_le_of_ne_zero s.tolerance.ticks_ne_zero
    · exact h.patient

/-- None of a hole is held, so a request for it expects all of it. -/
theorem progress_asked_firstGap {first last : Position} {gap : Span}
    (h : s.store.FirstGap first last gap) (hset : gap.last.IsSet) (p : Position) :
    (s.asked gap p).progress.expected.toNat = gap.size ∧
      (s.asked gap p).progress.requested.toNat = gap.size := by
  refine ⟨?_, requested_asked hset p⟩
  rw [expected_asked hset, Store.missing_of_disjoint h.not_held, Span.card_numbers]

/-- A request for a span is out if one of its positions is missing. -/
theorem awaiting_asked_of_missing {span : Span} {q : Position} (hset : span.last.IsSet)
    (hin : q ∈ span) (hmissing : q ∉ s.store) (p : Position) : (s.asked span p).Awaiting := by
  have hpos : 0 < (s.store.missing span).card :=
    Finset.card_pos.mpr ⟨_, Store.mem_missing.mpr ⟨hin, hmissing⟩⟩
  refine awaiting_asked (decide_eq_false (UInt32.not_le.mpr ?_))
  rw [UInt32.lt_iff_toNat_lt, expected_asked hset]
  exact hpos

end Session

/-! ## What is out after a rule -/

namespace Reconciler

open Rehearsal Script

/-- What is out after something happened. Most rules leave nothing out, and are not told apart. -/
inductive Leaves (r : Reconciler) : Stimulus → Reconciler → List Outbound → Prop
  /-- Nothing is out, neither a transfer nor a hole. -/
  | nothing {u : Stimulus} {q : Reconciler} {sent : List Outbound}
      (hst : q.state.isInProgress = false) (hfree : q.backfill = none) : Leaves r u q sent
  /-- What was out still is, for nothing came of what happened. -/
  | same {u : Stimulus} : Leaves r u r []
  /-- What was out still is, and the cursor channel took a tick. -/
  | ticked {now : Instant} {x : Record} {info : SessionInfo} {s : Session}
      (hs : r.journal.current = some s) (hlive : ¬ (s.receiveCursor x).isStalled) :
      Leaves r (.event now ⟨r.device, .cursor x info⟩) (r.enter (s.receiveCursor x)) []
  /-- The transfer is still out, and a record came for it. -/
  | delivered {now : Instant} {x : Record} {s : Session} (hs : r.journal.current = some s)
      (hst : r.state.isInProgress) (hopen : (s.receiveBulk x).progress.isComplete = false) :
      Leaves r (.event now ⟨r.device, .bulk x⟩)
        { r.enter (s.receiveBulk x) with
          state := .inProgress (s.receiveBulk x).progress.transferred
            (s.receiveBulk x).progress.requested }
        (r.announce (.inProgress (s.receiveBulk x).progress.transferred
          (s.receiveBulk x).progress.requested))
  /-- The hole is still out, and a record came for it. -/
  | filling {now : Instant} {x : Record} {s : Session} {gap : Span}
      (hs : r.journal.current = some s) (hgap : r.backfill = some gap)
      (hopen : (s.receiveBulk x).progress.isComplete = false) :
      Leaves r (.event now ⟨r.device, .bulk x⟩) (r.enter (s.receiveBulk x)) []
  /-- A transfer was asked for. -/
  | asked {u : Stimulus} {q : Reconciler} {sent : List Outbound} {s : Session} {span : Span}
      {p : Position} (hs : q.journal.current = some (s.asked span p)) (hfree : q.backfill = none)
      (hst : q.state = .inProgress 0 (.ofNat span.size))
      (hopen : (s.asked span p).progress.isComplete = false) (hset : span.last.IsSet)
      (hsent : requestsOf sent = [span]) : Leaves r u q sent
  /-- A hole was asked for. -/
  | repaired {u : Stimulus} {q : Reconciler} {sent : List Outbound} {s : Session}
      {first last : Position} {gap : Span} {p : Position}
      (hs : q.journal.current = some (s.asked gap p)) (hgap : q.backfill = some gap)
      (hst : q.state.isComplete) (hon : q.backfillOnGap)
      (hfirst : s.store.FirstGap first last gap) (hset : gap.last.IsSet)
      (hsent : requestsOf sent = [gap]) : Leaves r u q sent

/-- Every rule leaves something of this out, provided that a hole was out only while the log was
complete. -/
theorem Step.leaves {r q : Reconciler} {u : Stimulus} {sent : List Outbound}
    (hfree : ¬ r.state.isComplete → r.backfill = none) (h : Step r u q sent) :
    Leaves r u q sent := by
  have hrunning (hst : r.state.isInProgress) : r.backfill = none :=
    hfree fun hcomplete => UploadState.not_isComplete_of_isInProgress hst hcomplete
  cases h with
  | ignored => exact .same
  | disconnected => exact .nothing rfl rfl
  | noticed hst => exact .nothing rfl (hfree (by rw [hst]; exact Bool.false_ne_true))
  | left => exact .nothing rfl rfl
  | ticked hs _ _ hlive => exact .ticked hs hlive
  | stalled _ _ hst => exact .nothing rfl (hrunning hst)
  | settled _ _ _ hclear => exact .nothing rfl hclear.current.2.2.2.1
  | repaired _ _ hst hclear hgap =>
    obtain ⟨hcurrent, -, hstate, -⟩ := hclear.current
    obtain ⟨hon, t, _, ht, _, hfirst, hset⟩ := repairable?_eq_some hgap
    -- the session in which the hole was found is the one that it is asked for in
    rw [hcurrent] at ht
    cases ht
    exact .repaired rfl rfl (hstate ▸ hst) hon hfirst hset rfl
  | delivered hs hst hopen => exact .delivered hs hst hopen
  | fetched _ hst => exact .nothing rfl (hrunning hst)
  | filling hs _ hgap hopen => exact .filling hs hgap hopen
  | filled _ hst => exact .nothing (isInProgress_refreshed (by exact hst) _) rfl
  | added _ hst hnone => exact .nothing (isInProgress_refreshed (by exact hst) _) hnone
  | late _ hst =>
    have hcomplete : ¬ r.state.isComplete := by
      rcases hst with he | he <;> rw [he] <;> exact Bool.false_ne_true
    refine .nothing ?_ (hfree hcomplete)
    show r.state.isInProgress = false
    rcases hst with he | he <;> rw [he] <;> rfl
  | unneeded => exact .nothing rfl rfl
  | covered => exact .nothing rfl rfl
  | asked _ hneed hopen =>
    obtain ⟨-, hlast, hset⟩ := ordered_of_needed? hneed
    refine .asked rfl rfl rfl hopen (hlast ▸ hset) ?_
    show _ :: requestsOf (r.announce _) = _
    rw [requestsOf_announce]
  | cancelled _ hst => exact .nothing rfl (hrunning hst)
  | dropped hst => exact .nothing (Bool.not_eq_true _ ▸ hst) rfl
  | reset =>
    refine .nothing ?_ rfl
    show (if r.state.isUnavailable then r.state else .transferNeeded).isInProgress = false
    split
    · next hst => rw [UploadState.isUnavailable_iff.mp hst]; rfl
    · rfl

/-! ## The three places -/

/-- What the state, the hole that is out and the accounts say agrees. -/
structure Outstanding (r : Reconciler) : Prop where
  /-- While a transfer is running, the state tells the accounts of the current session, both
  channels have an expectation, and no hole is out. -/
  transfer : ∀ transferred requested, r.state = .inProgress transferred requested →
    r.backfill = none ∧ ∃ s, r.journal.current = some s ∧ s.Awaiting ∧
      s.progress.transferred = transferred ∧ s.progress.requested = requested ∧
      s.nextBulk.isSome ∧ s.nextCursor.isSome
  /-- While a hole is out, the log is complete, holes are filled at all, and the accounts are
  those of the whole hole. -/
  gap : ∀ gap, r.backfill = some gap → r.state.isComplete ∧ r.backfillOnGap ∧
    ∃ s, r.journal.current = some s ∧ s.Awaiting ∧
      s.progress.expected.toNat = gap.size ∧ s.progress.requested.toNat = gap.size
  /-- Before a transfer no hole is out. -/
  idle : r.state = .unavailable ∨ r.state = .transferNeeded → r.backfill = none

namespace Outstanding

variable {r q : Reconciler} {u : Stimulus} {sent : List Outbound}

/-- Nothing is out, neither a transfer nor a hole. -/
theorem of_nothing (hst : r.state.isInProgress = false) (hfree : r.backfill = none) :
    Outstanding r where
  transfer t n he := by rw [he] at hst; cases hst
  gap gap he := by rw [hfree] at he; cases he
  idle _ := hfree

/-- Only a transfer is out. -/
theorem of_transfer {s : Session} (hs : r.journal.current = some s) (hfree : r.backfill = none)
    (hst : r.state = .inProgress s.progress.transferred s.progress.requested) (hout : s.Awaiting)
    (hbulk : s.nextBulk.isSome) (hcursor : s.nextCursor.isSome) : Outstanding r where
  transfer t n he := by
    rw [hst] at he
    cases he
    exact ⟨hfree, s, hs, hout, rfl, rfl, hbulk, hcursor⟩
  gap gap he := by rw [hfree] at he; cases he
  idle _ := hfree

/-- Only a hole is out. -/
theorem of_gap {s : Session} {gap : Span} (hs : r.journal.current = some s)
    (hgap : r.backfill = some gap) (hst : r.state.isComplete) (hon : r.backfillOnGap)
    (hout : s.Awaiting) (hexpected : s.progress.expected.toNat = gap.size)
    (hrequested : s.progress.requested.toNat = gap.size) : Outstanding r where
  transfer t n he := by rw [he] at hst; cases hst
  gap gap' he := by
    rw [hgap] at he
    cases he
    exact ⟨hst, hon, s, hs, hout, hexpected, hrequested⟩
  idle he := by rcases he with he | he <;> rw [he] at hst <;> cases hst

/-- While a transfer is running, its accounts are those of the current session. -/
theorem of_current (h : Outstanding r) {s : Session} (hs : r.journal.current = some s)
    (hst : r.state.isInProgress) :
    r.backfill = none ∧ s.Awaiting ∧ s.nextBulk.isSome ∧ s.nextCursor.isSome ∧
      r.state = .inProgress s.progress.transferred s.progress.requested := by
  obtain ⟨t, n, he⟩ := UploadState.isInProgress_iff.mp hst
  obtain ⟨hfree, s', hs', hout, rfl, rfl, hbulk, hcursor⟩ := h.transfer _ _ he
  rw [hs] at hs'
  cases hs'
  exact ⟨hfree, hout, hbulk, hcursor, he⟩

/-- While a hole is out, its accounts are those of the current session. -/
theorem gap_of_current (h : Outstanding r) {s : Session} {gap : Span}
    (hs : r.journal.current = some s) (hgap : r.backfill = some gap) :
    r.state.isComplete ∧ r.backfillOnGap ∧ s.Awaiting ∧ s.progress.expected.toNat = gap.size ∧
      s.progress.requested.toNat = gap.size := by
  obtain ⟨hst, hon, s', hs', hout⟩ := h.gap gap hgap
  rw [hs] at hs'
  cases hs'
  exact ⟨hst, hon, hout⟩

/-- A hole is out only while the log is complete. -/
theorem backfill_eq_none (h : Outstanding r) (hst : ¬ r.state.isComplete) :
    r.backfill = none := by
  cases hgap : r.backfill with
  | none => rfl
  | some gap => exact absurd (h.gap gap hgap).1 hst

/-- **Every rule keeps the three places in agreement.** -/
theorem step (h : Outstanding r) (hstep : Step r u q sent) : Outstanding q := by
  cases hstep.leaves h.backfill_eq_none with
  | nothing hst hfree => exact of_nothing hst hfree
  | same => exact h
  | @ticked _ x _ s hs hlive =>
    have hcurrent := current_enter r (s.receiveCursor x)
    -- the tick may fall into a transfer, into the filling of a hole, or between requests
    by_cases hst : r.state.isInProgress
    · obtain ⟨hfree, hout, hbulk, hcursor, he⟩ := h.of_current hs hst
      refine of_transfer hcurrent hfree ?_ (hout.receiveCursor hlive) ?_ ?_
      · rw [Session.progress_receiveCursor]
        exact he
      · rw [Session.nextBulk_receiveCursor]
        exact hbulk
      · exact Session.isSome_nextCursor_receiveCursor hcursor x
    · cases hgap : r.backfill with
      | none => exact of_nothing (Bool.not_eq_true _ ▸ hst) hgap
      | some gap =>
        obtain ⟨hcomplete, hon, hout, hexpected, hrequested⟩ := h.gap_of_current hs hgap
        refine of_gap hcurrent hgap hcomplete hon (hout.receiveCursor hlive) ?_ ?_
        · rw [Session.progress_receiveCursor]
          exact hexpected
        · rw [Session.progress_receiveCursor]
          exact hrequested
  | @delivered _ x s hs hst hopen =>
    obtain ⟨hfree, hout, hbulk, hcursor, -⟩ := h.of_current hs hst
    refine of_transfer (current_enter r (s.receiveBulk x)) hfree rfl (hout.receiveBulk hopen)
      (Session.isSome_nextBulk_receiveBulk hbulk x) ?_
    rw [Session.nextCursor_receiveBulk]
    exact hcursor
  | @filling _ x s gap hs hgap hopen =>
    obtain ⟨hst, hon, hout, hexpected, hrequested⟩ := h.gap_of_current hs hgap
    refine of_gap (current_enter r (s.receiveBulk x)) hgap hst hon (hout.receiveBulk hopen) ?_ ?_
    · rw [Session.expected_receiveBulk]
      exact hexpected
    · rw [Session.requested_receiveBulk]
      exact hrequested
  | asked hs hfree hst hopen =>
    exact of_transfer hs hfree hst (Session.awaiting_asked hopen) rfl rfl
  | @repaired _ _ _ _ _ _ gap p hs hgap hst hon hfirst hset =>
    obtain ⟨hexpected, hrequested⟩ := Session.progress_asked_firstGap hfirst hset p
    have hin : gap.first ∈ gap := ⟨Nat.le_refl _, hfirst.ordered⟩
    have hout := Session.awaiting_asked_of_missing hset hin (hfirst.not_held _ hin) p
    exact of_gap hs hgap hst hon hout hexpected hrequested

end Outstanding

/-- **The three places agree after every run**: what a running transfer and a hole that is out
are said to be is what the accounts of the current session say. -/
theorem outstanding_after_run {device : DeviceId} {policy : Policy} {past : List Moment}
    {r : Reconciler} (h : Run (begin device policy) past r) : r.Outstanding :=
  h.invariant (I := fun _ r => r.Outstanding) (Outstanding.of_nothing rfl rfl) Outstanding.step

/-- A run after which a hole is out. -/
theorem outstanding_while_filling :
    ∃ past r, Run (begin Device.standard.id .standard) past r ∧ r.backfill = some (span 1 2) ∧
      r.Outstanding := by
  have hrun := run_rehearse .standard
    [Device.standard.start (pos 0) (pos 0), Device.standard.bulk (pos 0),
      Device.standard.cursor (pos 3)]
  exact ⟨_, _, hrun, by decide, outstanding_after_run hrun⟩

end Reconciler

end Logbook
