import Logbook.Proofs.Reconciler.Outstanding

/-!
# What the end of a request says

A request ends when as many records have come as were missing when it was made. Only new
positions are counted, but they are counted wherever they lie, and only on the bulk channel. So
two kinds of records disturb the count: new ones that were not asked for, which may be late
answers to an earlier request, and those asked for that the cursor channel brings first.

- `Moment.isStray`, `Moment.isIntruder`: the two kinds.
- `Reconciler.Balanced`: the accounts of a request, told from what is missing and from both kinds.
- `Reconciler.balanced_of_out`: while a request is out, its accounts balance.
- `Reconciler.covers_iff_strays_eq_intruders`: a request that ends has brought all of its span
  exactly when there were as many of the one kind as of the other.
-/

namespace Logbook

/-! ## Records that disturb the count -/

namespace Moment

/-- The current session comes to hold a position. -/
def gains (m : Moment) (p : Position) : Bool := !m.before.holds p && m.after.next.holds p

/-- The bulk channel brings a new position outside of the span. -/
def isStray (span : Span) (m : Moment) : Bool :=
  match m.stimulus with
  | .event _ ⟨_, .bulk x⟩ => m.gains x.position && decide (x.position ∉ span)
  | _ => false

/-- The cursor channel brings a new position of the span. -/
def isIntruder (span : Span) (m : Moment) : Bool :=
  match m.stimulus with
  | .event _ ⟨_, .cursor x _⟩ => m.gains x.position && decide (x.position ∈ span)
  | _ => false

end Moment

/-- How many new positions outside of the span the bulk channel brought. -/
def strays (span : Span) (ms : List Moment) : Nat := ms.countP (Moment.isStray span)

/-- How many new positions of the span the cursor channel brought. -/
def intruders (span : Span) (ms : List Moment) : Nat := ms.countP (Moment.isIntruder span)

section Counts

variable {r : Reconciler} {a : Reaction} {now : Instant} {d : DeviceId} {x : Record}
  {info : SessionInfo}

theorem strays_bulk (span : Span) (ms : List Moment) :
    strays span (⟨r, .event now ⟨d, .bulk x⟩, a⟩ :: ms) = strays span ms +
      if Moment.gains ⟨r, .event now ⟨d, .bulk x⟩, a⟩ x.position ∧ x.position ∉ span then 1
      else 0 := by
  simp only [strays, List.countP_cons, Moment.isStray, Bool.and_eq_true, decide_eq_true_iff]

theorem strays_cursor (span : Span) (ms : List Moment) :
    strays span (⟨r, .event now ⟨d, .cursor x info⟩, a⟩ :: ms) = strays span ms :=
  List.countP_cons_of_neg Bool.false_ne_true

theorem intruders_bulk (span : Span) (ms : List Moment) :
    intruders span (⟨r, .event now ⟨d, .bulk x⟩, a⟩ :: ms) = intruders span ms :=
  List.countP_cons_of_neg Bool.false_ne_true

theorem intruders_cursor (span : Span) (ms : List Moment) :
    intruders span (⟨r, .event now ⟨d, .cursor x info⟩, a⟩ :: ms) = intruders span ms +
      if Moment.gains ⟨r, .event now ⟨d, .cursor x info⟩, a⟩ x.position ∧ x.position ∈ span then 1
      else 0 := by
  simp only [intruders, List.countP_cons, Moment.isIntruder, Bool.and_eq_true, decide_eq_true_iff]

end Counts

namespace Reconciler

open Rehearsal Script

variable {r q : Reconciler} {s t : Session} {u : Stimulus} {past : List Moment} {a : Reaction}
  {span : Span}

theorem gains_iff {p : Position} (hs : r.journal.current = some s)
    (ht : a.next.journal.current = some t) :
    Moment.gains ⟨r, u, a⟩ p ↔ p ∉ s.store ∧ p ∈ t.store := by
  unfold Moment.gains
  rw [Bool.and_eq_true, Bool.not_eq_true', ← Bool.not_eq_true, holds_of_current hs,
    holds_of_current ht]

/-- What is missing of a span after a record was stored, or was not. -/
theorem card_missing_of_stored {x : Record} (hs : r.journal.current = some s)
    (ht : a.next.journal.current = some t)
    (hstore : t.store = s.store ∨ t.store = s.store.insert x) (span : Span) :
    (t.store.missing span).card +
        (if x.position ∈ span ∧ Moment.gains ⟨r, u, a⟩ x.position then 1 else 0) =
      (s.store.missing span).card := by
  have hgains := gains_iff (u := u) (p := x.position) hs ht
  rcases hstore with he | he
  · have hnot : ¬ Moment.gains ⟨r, u, a⟩ x.position := by
      rw [hgains, he]
      exact fun h => h.1 h.2
    rw [if_neg fun h => hnot h.2, he, Nat.add_zero]
  · have hin : x.position ∈ t.store := by
      rw [he]
      exact Store.mem_insert.mpr (.inl rfl)
    rw [← s.store.card_missing_insert x span, he]
    simp only [hgains, hin, and_true]

/-- A record of the bulk channel is counted when the session gains its position. -/
theorem transferred_of_gains {x : Record} (hs : r.journal.current = some s)
    (ht : a.next.journal.current = some t) (hstore : t.store = (s.receiveBulk x).store)
    (hshort : s.progress.transferred < s.progress.expected) :
    (s.receiveBulk x).progress.transferred.toNat =
      s.progress.transferred.toNat +
        if Moment.gains ⟨r, u, a⟩ x.position then 1 else 0 := by
  have hgains := gains_iff (u := u) (p := x.position) hs ht
  have hlt := UInt32.lt_iff_toNat_lt.mp hshort
  have hbound := s.progress.expected.toNat_lt
  rw [hstore, Session.store_receiveBulk] at hgains
  rw [Session.transferred_receiveBulk]
  by_cases hset : x.position.IsSet
  · have hin : x.position ∈ s.store.insert x := Store.mem_insert.mpr (.inl rfl)
    simp only [hset, if_true, hin, and_true] at hgains
    simp only [hset, true_and, hgains]
    split
    -- the counter is below another one, so it does not saturate
    · rw [Counter.toNat_succ]
      omega
    · rfl
  · rw [if_neg hset] at hgains
    rw [if_neg fun h => hset h.1, if_neg fun h => (hgains.mp h).1 (hgains.mp h).2, Nat.add_zero]

/-- Where nothing changes, no position is gained, and so no count is disturbed. -/
theorem disturbs_of_same (hnext : a.next = r) (span : Span) :
    Moment.isStray span ⟨r, u, a⟩ = false ∧ Moment.isIntruder span ⟨r, u, a⟩ = false := by
  have hnot (p : Position) : Moment.gains ⟨r, u, a⟩ p = false := by
    unfold Moment.gains
    rw [hnext, Bool.not_and_self]
  constructor
  · unfold Moment.isStray
    split
    · rw [hnot, Bool.false_and]
    · rfl
  · unfold Moment.isIntruder
    split
    · rw [hnot, Bool.false_and]
    · rfl

/-! ## The balance -/

/-- The accounts of the current session are those of the last request: what came and what is
missing makes up for what was expected, but for the records that disturb the count. -/
structure Balanced (past : List Moment) (r : Reconciler) (span : Span) (s : Session) : Prop where
  last : lastRequest? past = some span
  current : r.journal.current = some s
  balance : s.progress.transferred.toNat + (s.store.missing span).card +
      intruders span (sinceRequest past) =
    s.progress.expected.toNat + strays span (sinceRequest past)

namespace Balanced

/-- A request balances when it is made. -/
theorem of_asked {p : Position} (hs : a.next.journal.current = some (s.asked span p))
    (hset : span.last.IsSet) (hsent : requestsOf a.sent = [span]) :
    Balanced (⟨r, u, a⟩ :: past) a.next span (s.asked span p) where
  last := lastRequest?_of_request hsent past
  current := hs
  balance := by
    -- nothing has come since the request was made
    have hnone : sinceRequest (⟨r, u, a⟩ :: past) = [] := sinceRequest_of_request hsent past
    have hexpected := Session.expected_asked (s := s) hset p
    rw [hnone, hexpected, Session.store_asked]
    show 0 + _ + 0 = _ + 0
    omega

/-- A request stays balanced when the bulk channel brings a record. -/
theorem receiveBulk (h : Balanced past r span s)
    (hshort : s.progress.transferred < s.progress.expected) {now : Instant} {d : DeviceId}
    {x : Record} (ht : a.next.journal.current = some t)
    (hstore : t.store = (s.receiveBulk x).store)
    (hprogress : t.progress = (s.receiveBulk x).progress) (hsent : requestsOf a.sent = []) :
    Balanced (⟨r, .event now ⟨d, .bulk x⟩, a⟩ :: past) a.next span t where
  last := by
    rw [lastRequest?_of_quiet hsent]
    exact h.last
  current := ht
  balance := by
    have hstored : t.store = s.store ∨ t.store = s.store.insert x := by
      rw [hstore, Session.store_receiveBulk]
      split
      · exact .inr rfl
      · exact .inl rfl
    have hmissing := card_missing_of_stored (u := .event now ⟨d, .bulk x⟩) h.current ht hstored span
    have hcounted := transferred_of_gains (u := .event now ⟨d, .bulk x⟩) h.current ht hstore hshort
    have hbalance := h.balance
    rw [sinceRequest_of_quiet hsent, strays_bulk, intruders_bulk, hprogress, hcounted,
      Session.expected_receiveBulk]
    -- a new position is counted: one of the span is no longer missing, any other is a stray
    by_cases hgains : Moment.gains ⟨r, .event now ⟨d, .bulk x⟩, a⟩ x.position
    · by_cases hin : x.position ∈ span
      · rw [if_pos ⟨hin, hgains⟩] at hmissing
        rw [if_pos hgains, if_neg fun h => h.2 hin]
        omega
      · rw [if_neg fun h => hin h.1] at hmissing
        rw [if_pos hgains, if_pos ⟨hgains, hin⟩]
        omega
    · rw [if_neg fun h => hgains h.2] at hmissing
      rw [if_neg hgains, if_neg fun h => hgains h.1]
      omega

/-- A request stays balanced when the cursor channel brings a record. -/
theorem receiveCursor (h : Balanced past r span s) {now : Instant} {d : DeviceId} {x : Record}
    {info : SessionInfo} (ht : a.next.journal.current = some (s.receiveCursor x))
    (hsent : requestsOf a.sent = []) :
    Balanced (⟨r, .event now ⟨d, .cursor x info⟩, a⟩ :: past) a.next span
      (s.receiveCursor x) where
  last := by
    rw [lastRequest?_of_quiet hsent]
    exact h.last
  current := ht
  balance := by
    have hstored : (s.receiveCursor x).store = s.store ∨
        (s.receiveCursor x).store = s.store.insert x := by
      rw [Session.store_receiveCursor]
      split
      · exact .inr rfl
      · exact .inl rfl
    have hmissing := card_missing_of_stored (u := .event now ⟨d, .cursor x info⟩) h.current ht
      hstored span
    have hbalance := h.balance
    rw [sinceRequest_of_quiet hsent, strays_cursor, intruders_cursor,
      Session.progress_receiveCursor]
    -- a new position of the span is no longer missing, but it is not counted
    by_cases hin : x.position ∈ span ∧
        Moment.gains ⟨r, .event now ⟨d, .cursor x info⟩, a⟩ x.position
    · rw [if_pos hin] at hmissing
      rw [if_pos hin.symm]
      omega
    · rw [if_neg hin] at hmissing
      rw [if_neg fun h => hin h.symm]
      omega

/-- A request stays balanced when nothing comes of what happens. -/
theorem same (h : Balanced past r span s) {u : Stimulus} (hnext : a.next = r)
    (hsent : requestsOf a.sent = []) : Balanced (⟨r, u, a⟩ :: past) a.next span s where
  last := by
    rw [lastRequest?_of_quiet hsent]
    exact h.last
  current := by
    rw [hnext]
    exact h.current
  balance := by
    obtain ⟨hstray, hintruder⟩ := disturbs_of_same (u := u) hnext span
    rw [sinceRequest_of_quiet hsent]
    unfold strays intruders
    rw [List.countP_cons_of_neg (Bool.not_eq_true _ ▸ hintruder),
      List.countP_cons_of_neg (Bool.not_eq_true _ ▸ hstray)]
    exact h.balance

end Balanced

/-! ## Runs -/

/-- A request is out, be it for a transfer or for a hole. -/
def IsOut (r : Reconciler) : Prop := r.state.isInProgress ∨ r.backfill.isSome

/-- The session of a request that is out. -/
theorem Outstanding.awaiting (h : Outstanding r) (hout : r.IsOut)
    (hs : r.journal.current = some s) : s.Awaiting := by
  rcases hout with hst | hgap
  · exact (h.of_current hs hst).2.1
  · obtain ⟨gap, hgap⟩ := Option.isSome_iff_exists.mp hgap
    exact (h.gap_of_current hs hgap).2.2.1

/-- Every rule keeps a request that is out balanced, and leaves a new one balanced. -/
theorem balanced_step (hout : Outstanding r)
    (h : r.IsOut → ∃ span s, Balanced past r span s) (hstep : Step r u a.next a.sent)
    (hnext : a.next.IsOut) : ∃ span s, Balanced (⟨r, u, a⟩ :: past) a.next span s := by
  obtain ⟨q, sent, notes⟩ := a
  cases hstep.leaves hout.backfill_eq_none with
  | nothing hst hfree =>
    dsimp only at hst hfree hnext
    rw [IsOut, hst, hfree] at hnext
    rcases hnext with h | h <;> cases h
  | same =>
    obtain ⟨span, s, hbalanced⟩ := h hnext
    exact ⟨span, s, hbalanced.same rfl rfl⟩
  | @ticked _ x _ s hs hlive =>
    obtain ⟨span, s', hbalanced⟩ := h hnext
    obtain rfl : s = s' := Option.some_inj.mp (hs.symm.trans hbalanced.current)
    exact ⟨span, _, hbalanced.receiveCursor rfl rfl⟩
  | @delivered _ x s hs hst =>
    obtain ⟨span, s', hbalanced⟩ := h (.inl hst)
    obtain rfl : s = s' := Option.some_inj.mp (hs.symm.trans hbalanced.current)
    have hshort := (hout.awaiting (.inl hst) hs).short
    exact ⟨span, _, hbalanced.receiveBulk hshort rfl rfl rfl (requestsOf_announce r _)⟩
  | @filling _ x s gap hs hgap =>
    have hisOut : r.IsOut := .inr (by rw [hgap]; rfl)
    obtain ⟨span, s', hbalanced⟩ := h hisOut
    obtain rfl : s = s' := Option.some_inj.mp (hs.symm.trans hbalanced.current)
    exact ⟨span, _, hbalanced.receiveBulk (hout.awaiting hisOut hs).short rfl rfl rfl rfl⟩
  | asked hs _ _ _ hset hsent => exact ⟨_, _, .of_asked hs hset hsent⟩
  | repaired hs _ _ _ _ hset hsent => exact ⟨_, _, .of_asked hs hset hsent⟩

/-- While a request is out, its accounts balance. -/
theorem balanced_of_out {device : DeviceId} {policy : Policy}
    (h : Run (begin device policy) past r) :
    Outstanding r ∧ (r.IsOut → ∃ span s, Balanced past r span s) := by
  refine h.invariant (I := fun past r => Outstanding r ∧
    (r.IsOut → ∃ span s, Balanced past r span s)) ?_ ?_
  · refine ⟨.of_nothing rfl rfl, ?_⟩
    rintro (hst | hgap)
    · cases hst
    · cases hgap
  · rintro past r u a ⟨hout, hbalanced⟩ hstep
    exact ⟨hout.step hstep, balanced_step hout hbalanced hstep⟩

/-! ## The end of a request -/

/-- What was out has ended as it should: the transfer with a complete log, or the hole. -/
def Ends (r q : Reconciler) : Prop :=
  r.state.isInProgress ∧ q.state.isComplete ∨ r.backfill.isSome ∧ q.backfill = none

/-- A request that has come to its end has brought its span if nothing disturbed the count, or if
the two kinds of disturbance make up for each other. -/
theorem Balanced.covers_iff_of_done (h : Balanced past r span s)
    (hdone : s.progress.transferred.toNat = s.progress.expected.toNat) :
    s.store.Covers span ↔
      strays span (sinceRequest past) = intruders span (sinceRequest past) := by
  have hbalance := h.balance
  rw [Store.covers_iff, ← Finset.card_eq_zero]
  omega

/-- A record of the bulk channel that ends a request is the last one that counts. -/
theorem transferred_of_last {x : Record} (hout : s.Awaiting)
    (hdone : (s.receiveBulk x).progress.isComplete) :
    (s.receiveBulk x).progress.transferred.toNat =
      (s.receiveBulk x).progress.expected.toNat := by
  have hle := UInt32.le_iff_toNat_le.mp (of_decide_eq_true hdone)
  have hlt := UInt32.lt_iff_toNat_lt.mp hout.short
  rw [Session.expected_receiveBulk] at hle ⊢
  rw [Session.transferred_receiveBulk] at hle ⊢
  split at hle
  · next hnew =>
    rw [if_pos hnew, Counter.toNat_succ]
    rw [Counter.toNat_succ] at hle
    omega
  · omega

theorem covers_iff_of_last {x : Record} {now : Instant} {d : DeviceId}
    (h : Balanced past r span s) (hout : s.Awaiting)
    (hdone : (s.receiveBulk x).progress.isComplete)
    (ht : a.next.journal.current = some (s.receiveBulk x).finish) (hsent : requestsOf a.sent = []) :
    (s.receiveBulk x).finish.store.Covers span ↔
      strays span (⟨r, .event now ⟨d, .bulk x⟩, a⟩ :: sinceRequest past) =
        intruders span (sinceRequest past) := by
  have hlast : Balanced (⟨r, .event now ⟨d, .bulk x⟩, a⟩ :: past) a.next span
      (s.receiveBulk x).finish := h.receiveBulk hout.short ht rfl rfl hsent
  have hcovers := hlast.covers_iff_of_done (transferred_of_last hout hdone)
  rw [sinceRequest_of_quiet hsent, intruders_bulk] at hcovers
  exact hcovers

/-- What was out ends only by a record that makes the accounts complete. -/
theorem last_of_ends {x : Record} {now : Instant} {sent : List Outbound} (hout : Outstanding r)
    (hs : r.journal.current = some s) (hstep : Step r (.event now ⟨r.device, .bulk x⟩) q sent)
    (hends : r.Ends q) :
    (s.receiveBulk x).progress.isComplete ∧
      q.journal.current = some (s.receiveBulk x).finish ∧ requestsOf sent = [] := by
  have hsame {s' : Session} (hs' : r.journal.current = some s') : s' = s :=
    Option.some_inj.mp (hs'.symm.trans hs)
  -- only the rules for the last record of a request end it
  cases hstep with
  | ignored hnone =>
    rw [show r.journal.current = none from hnone] at hs
    cases hs
  | delivered hs' hst =>
    rcases hends with ⟨-, hcomplete⟩ | ⟨hgap, -⟩
    · cases hcomplete
    · rw [(hout.of_current hs' hst).1] at hgap
      cases hgap
  | fetched hs' _ hdone =>
    obtain rfl := hsame hs'
    exact ⟨hdone, rfl, requestsOf_announce ..⟩
  | filling hs' hst hgap =>
    rcases hends with ⟨hrunning, -⟩ | ⟨-, hfree⟩
    · exact absurd hst (UploadState.not_isComplete_of_isInProgress hrunning)
    · rw [show r.backfill = none from hfree] at hgap
      cases hgap
  | filled hs' _ _ hdone =>
    obtain rfl := hsame hs'
    exact ⟨hdone, rfl, requestsOf_refreshSent ..⟩
  | added _ hst hfree =>
    rcases hends with ⟨hrunning, -⟩ | ⟨hgap, -⟩
    · exact absurd hst (UploadState.not_isComplete_of_isInProgress hrunning)
    · rw [hfree] at hgap
      cases hgap
  | late _ hst =>
    rcases hends with ⟨hrunning, -⟩ | ⟨hgap, -⟩
    · rcases hst with he | he <;> rw [he] at hrunning <;> cases hrunning
    · rw [hout.idle hst] at hgap
      cases hgap

/-- **A request that ends has brought all of its span exactly when, since it was made, the bulk
channel brought as many new positions from outside of the span as the cursor channel brought from
inside.** In particular it has if there were none of either. -/
theorem covers_iff_strays_eq_intruders {device : DeviceId} {policy : Policy}
    (h : Run (begin device policy) past r) (now : Instant) (x : Record) :
    ∃ a, r.handle now ⟨r.device, .bulk x⟩ = .ok a ∧
      (r.Ends a.next → ∃ span s, lastRequest? past = some span ∧
        a.next.journal.current = some s ∧
        (s.store.Covers span ↔
          strays span (⟨r, .event now ⟨r.device, .bulk x⟩, a⟩ :: sinceRequest past) =
            intruders span (sinceRequest past))) := by
  obtain ⟨hout, hbalanced⟩ := balanced_of_out h
  obtain ⟨⟨q, sent, notes⟩, ha, hstep⟩ := exists_react r now (.bulk x)
  refine ⟨_, ha, ?_⟩
  intro hends
  have hisOut : r.IsOut := hends.imp (·.1) (·.1)
  obtain ⟨span, s, hb⟩ := hbalanced hisOut
  have hawaiting := hout.awaiting hisOut hb.current
  obtain ⟨hdone, hcurrent, hsent⟩ := last_of_ends hout hb.current hstep hends
  exact ⟨span, _, hb.last, hcurrent, covers_iff_of_last hb hawaiting hdone hcurrent hsent⟩

/-- A transfer of one position ends with the record that comes for it. -/
theorem covers_iff_after_one_record :
    ∃ past r a, Run (begin Device.standard.id .standard) past r ∧
      r.handle now ⟨r.device, .bulk (Device.record (pos 0))⟩ = .ok a ∧ r.Ends a.next ∧
      ∃ span s, lastRequest? past = some span ∧ a.next.journal.current = some s ∧
        (s.store.Covers span ↔
          strays span (⟨r, .event now ⟨r.device, .bulk (Device.record (pos 0))⟩, a⟩ ::
            sinceRequest past) = intruders span (sinceRequest past)) := by
  have hrun := run_rehearse .standard [Device.standard.start (pos 0) (pos 0)]
  obtain ⟨a, ha, hcovers⟩ := covers_iff_strays_eq_intruders hrun now (Device.record (pos 0))
  have hcomplete : a.next.state.isComplete :=
    of_handle (P := fun b => b.next.state.isComplete) ha (by decide)
  have hends : Ends (rehearse .standard [Device.standard.start (pos 0) (pos 0)]).2 a.next :=
    .inl ⟨by decide, hcomplete⟩
  exact ⟨_, _, a, hrun, ha, hends, hcovers hends⟩

/-- A request for 0 to 3 is given up, and its answer at 2 comes after 10 and 11 were asked for. -/
def lateAnswer : List Inbound :=
  [Device.standard.start (pos 0) (pos 3)] ++ Device.standard.bulks (Script.run 0 2) ++
    [Device.standard.cancel, Device.standard.start (pos 10) (pos 11), Device.standard.bulk (pos 2)]

/-- With the answer at 3 the request for 10 and 11 ends, of which nothing has come. -/
theorem ends_without_covering :
    ¬ ∀ (past : List Moment) (r : Reconciler) (now : Instant) (x : Record) (a : Reaction),
      Run (begin Device.standard.id .standard) past r →
        r.handle now ⟨r.device, .bulk x⟩ = .ok a → r.Ends a.next →
          ∀ span, lastRequest? past = some span → ∀ p ∈ span, a.next.holds p := by
  intro hall
  have hrun := run_rehearse .standard lateAnswer
  obtain ⟨a, ha, -⟩ :=
    exists_react (rehearse .standard lateAnswer).2 now (.bulk (Device.record (pos 3)))
  have hcomplete : a.next.state.isComplete :=
    of_handle (P := fun b => b.next.state.isComplete) ha (by decide)
  have hmissing : a.next.holds (pos 10) = false :=
    Bool.not_eq_true' _ ▸ of_handle (P := fun b => !b.next.holds (pos 10)) ha (by decide)
  have hheld := hall _ _ _ _ a hrun ha (.inl ⟨by decide, hcomplete⟩) (span 10 11) (by decide)
    (pos 10) (by decide)
  rw [hmissing] at hheld
  cases hheld

end Reconciler

end Logbook
