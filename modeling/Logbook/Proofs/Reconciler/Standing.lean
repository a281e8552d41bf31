import Logbook.Proofs.Reconciler.Accounts
import Logbook.Proofs.Reconciler.Expectation
import Logbook.Proofs.Session.Accounts

/-!
# Where the cursor channel stands while a request is out

A request leaves its span to the bulk channel, and says where the cursor channel goes on: after
the span of a transfer, or after the record at which a hole was asked for. From there on the
expectation only moves past records that are stored. So the cursor channel stays out of a span that
it was above, but it fills positions of one that it was not above, and these are not counted.

- `standing?`: where the cursor channel was to go on when the last request was made.
- `Reconciler.standing_of_out`: while a request is out, the expectation follows that.
- `Reconciler.covers_iff_of_out`: when all of a span is held although its request is out.
-/

namespace Logbook

open Rehearsal Script

/-! ## Where the cursor channel goes on -/

/-- Where the cursor channel goes on when what happens makes the reconciler ask: after the last
position that is wanted, or after the record that came. -/
def Stimulus.resumes? : Stimulus → Option Position
  | .event _ ⟨_, .start _ last _⟩ => some last.next
  | .event _ ⟨_, .cursor x _⟩ => some x.position.next
  | _ => none

/-- Where the cursor channel was to go on when the last request was made. -/
def standing? (past : List Moment) : Option Position :=
  (past.find? (·.request?.isSome)).bind (·.stimulus.resumes?)

section Past

variable {r : Reconciler} {u : Stimulus} {a : Reaction} {span : Span}

theorem standing?_of_quiet (h : requestsOf a.sent = []) (past : List Moment) :
    standing? (⟨r, u, a⟩ :: past) = standing? past := by
  rw [standing?, List.find?_cons, request?_of_quiet h]
  rfl

theorem standing?_of_request (h : requestsOf a.sent = [span]) (past : List Moment) :
    standing? (⟨r, u, a⟩ :: past) = u.resumes? := by
  rw [standing?, List.find?_cons, request?_of_request h]
  rfl

end Past

namespace Reconciler

variable {r q : Reconciler} {s : Session} {u : Stimulus} {sent : List Outbound}
  {past : List Moment} {a : Reaction} {span : Span} {base : Position}

/-- With a request the cursor channel is told where to go on; with that for a transfer it is after
the span. -/
theorem Step.resumes (h : Step r u q sent) (hsent : requestsOf sent = [span]) :
    q.expected? = u.resumes? ∧ (q.state.isInProgress → u.resumes? = some span.last.next) := by
  have hquiet (hnone : requestsOf sent = []) :
      q.expected? = u.resumes? ∧ (q.state.isInProgress → u.resumes? = some span.last.next) := by
    rw [hnone] at hsent
    cases hsent
  cases h with
  | ignored | disconnected | noticed | left | ticked | filling | late | dropped =>
    exact hquiet rfl
  | stalled | settled | delivered | fetched | unneeded | cancelled =>
    exact hquiet (requestsOf_announce ..)
  | filled | added => exact hquiet (requestsOf_refreshSent ..)
  | reset =>
    refine hquiet ?_
    split
    · rfl
    · exact requestsOf_announce ..
  | repaired _ _ hst hclear =>
    refine ⟨rfl, fun hrunning => ?_⟩
    obtain ⟨-, -, hstate, -⟩ := hclear.current
    exact absurd (hstate ▸ hst) (UploadState.not_isComplete_of_isInProgress hrunning)
  | covered _ hneed =>
    obtain ⟨-, hlast, -⟩ := ordered_of_needed? hneed
    refine ⟨?_, fun hrunning => by cases hrunning⟩
    rw [Stimulus.resumes?, ← hlast]
    rfl
  | asked _ hneed =>
    obtain ⟨-, hlast, -⟩ := ordered_of_needed? hneed
    have hspan : _ :: requestsOf (r.announce _) = [span] := hsent
    rw [requestsOf_announce] at hspan
    obtain ⟨rfl, -⟩ := List.cons_eq_cons.mp hspan
    rw [Stimulus.resumes?, ← hlast]
    exact ⟨rfl, fun _ => rfl⟩

/-- The cursor channel follows the position at which it was to go on with the last request, and
has brought nothing of a span that lies below. -/
structure Standing (past : List Moment) (r : Reconciler) (span : Span) (s : Session)
    (base : Position) : Prop where
  last : lastRequest? past = some span
  current : r.journal.current = some s
  asked : standing? past = some base
  follows : s.Follows base
  transfer : r.state.isInProgress → base = span.last.next
  aside : span.last < base → intruders span (sinceRequest past) = 0

namespace Standing

/-- A request that is made tells where the cursor channel goes on. -/
theorem of_asked {p : Position} (hstep : Step r u a.next a.sent)
    (hs : a.next.journal.current = some (s.asked span p)) (hsent : requestsOf a.sent = [span]) :
    Standing (⟨r, u, a⟩ :: past) a.next span (s.asked span p) p := by
  obtain ⟨hexpected, htransfer⟩ := hstep.resumes hsent
  have hbase : u.resumes? = some p := by
    rw [← hexpected, expected?_of_current hs]
    rfl
  refine ⟨lastRequest?_of_request hsent past, hs, ?_, ⟨p, rfl, Nat.le_refl _, .inl rfl⟩, ?_, ?_⟩
  · rw [standing?_of_request hsent, hbase]
  · intro hrunning
    rw [htransfer hrunning] at hbase
    exact (Option.some_inj.mp hbase).symm
  · intro
    rw [sinceRequest_of_request hsent]
    rfl

/-- The channel stands where it stood when nothing comes of what happens. -/
theorem same (h : Standing past r span s base) (hnext : a.next = r)
    (hsent : requestsOf a.sent = []) : Standing (⟨r, u, a⟩ :: past) a.next span s base := by
  rw [hnext]
  refine ⟨?_, h.current, ?_, h.follows, h.transfer, ?_⟩
  · rw [lastRequest?_of_quiet hsent]
    exact h.last
  · rw [standing?_of_quiet hsent]
    exact h.asked
  · intro hbelow
    obtain ⟨-, hintruder⟩ := disturbs_of_same (u := u) hnext span
    rw [sinceRequest_of_quiet hsent, intruders,
      List.countP_cons_of_neg (Bool.not_eq_true _ ▸ hintruder)]
    exact h.aside hbelow

/-- A record that the cursor channel brings is not of a span that it was above. -/
theorem receiveCursor (h : Standing past r span s base) {now : Instant} {d : DeviceId} {x : Record}
    {info : SessionInfo} (ht : a.next.journal.current = some (s.receiveCursor x))
    (hst : a.next.state = r.state) (hsent : requestsOf a.sent = []) :
    Standing (⟨r, .event now ⟨d, .cursor x info⟩, a⟩ :: past) a.next span (s.receiveCursor x)
      base := by
  refine ⟨?_, ht, ?_, h.follows.receiveCursor x, ?_, ?_⟩
  · rw [lastRequest?_of_quiet hsent]
    exact h.last
  · rw [standing?_of_quiet hsent]
    exact h.asked
  · rw [hst]
    exact h.transfer
  · intro hbelow
    rw [sinceRequest_of_quiet hsent, intruders_cursor, h.aside hbelow, if_neg]
    rintro ⟨hgains, hin⟩
    obtain ⟨hout, hheld⟩ := (gains_iff h.current ht).mp hgains
    rw [Session.store_receiveCursor] at hheld
    split at hheld
    · next haccepts =>
      have hle := Position.le_iff.mp (h.follows.le_of_accepts haccepts)
      have hlt := Position.lt_iff.mp hbelow
      have hlast := (Span.mem_iff.mp hin).2
      omega
    · exact hout hheld

/-- A record of the bulk channel leaves the cursor channel where it is. -/
theorem receiveBulk (h : Standing past r span s base) {now : Instant} {d : DeviceId} {x : Record}
    (ht : a.next.journal.current = some (s.receiveBulk x))
    (hst : a.next.state.isInProgress → r.state.isInProgress) (hsent : requestsOf a.sent = []) :
    Standing (⟨r, .event now ⟨d, .bulk x⟩, a⟩ :: past) a.next span (s.receiveBulk x) base := by
  refine ⟨?_, ht, ?_, h.follows.receiveBulk x, fun hrunning => h.transfer (hst hrunning), ?_⟩
  · rw [lastRequest?_of_quiet hsent]
    exact h.last
  · rw [standing?_of_quiet hsent]
    exact h.asked
  · intro hbelow
    rw [sinceRequest_of_quiet hsent, intruders_bulk]
    exact h.aside hbelow

end Standing

/-! ## Runs -/

/-- Every rule keeps the channel following the last request that is out. -/
theorem standing_step (hout : Outstanding r)
    (h : r.IsOut → ∃ span s base, Standing past r span s base) (hstep : Step r u a.next a.sent)
    (hnext : a.next.IsOut) :
    ∃ span s base, Standing (⟨r, u, a⟩ :: past) a.next span s base := by
  have hasked := hstep
  obtain ⟨q, sent, notes⟩ := a
  cases hstep.leaves hout.backfill_eq_none with
  | nothing hst hfree =>
    dsimp only at hst hfree hnext
    rw [IsOut, hst, hfree] at hnext
    rcases hnext with h | h <;> cases h
  | same =>
    obtain ⟨span, s, base, hstanding⟩ := h hnext
    exact ⟨span, s, base, hstanding.same rfl rfl⟩
  | ticked hs =>
    obtain ⟨span, s', base, hstanding⟩ := h hnext
    obtain rfl := Option.some_inj.mp (hs.symm.trans hstanding.current)
    exact ⟨span, _, base, hstanding.receiveCursor rfl rfl rfl⟩
  | delivered hs hst =>
    obtain ⟨span, s', base, hstanding⟩ := h (.inl hst)
    obtain rfl := Option.some_inj.mp (hs.symm.trans hstanding.current)
    exact ⟨span, _, base, hstanding.receiveBulk rfl (fun _ => hst) (requestsOf_announce r _)⟩
  | filling hs hgap =>
    obtain ⟨span, s', base, hstanding⟩ := h (.inr (by rw [hgap]; rfl))
    obtain rfl := Option.some_inj.mp (hs.symm.trans hstanding.current)
    exact ⟨span, _, base, hstanding.receiveBulk rfl id rfl⟩
  | asked hs _ _ _ _ hsent => exact ⟨_, _, _, .of_asked hasked hs hsent⟩
  | repaired hs _ _ _ _ _ hsent => exact ⟨_, _, _, .of_asked hasked hs hsent⟩

/-- While a request is out, the cursor channel follows it. -/
theorem standing_of_out {device : DeviceId} {policy : Policy}
    (h : Run (begin device policy) past r) (hout : r.IsOut) :
    ∃ span s base, Standing past r span s base := by
  have hboth : Outstanding r ∧ (r.IsOut → ∃ span s base, Standing past r span s base) := by
    refine h.invariant (I := fun past r => Outstanding r ∧
      (r.IsOut → ∃ span s base, Standing past r span s base)) ?_ ?_
    · refine ⟨.of_nothing rfl rfl, ?_⟩
      rintro (hst | hgap)
      · cases hst
      · cases hgap
    · rintro past r u a ⟨hout, hstanding⟩ hstep
      exact ⟨hout.step hstep, standing_step hout hstanding hstep⟩
  exact hboth.2 hout

/-! ## Spans that are held although they are out -/

/-- **All of the span of a request that is out is held exactly when the cursor channel brought as
many of its positions as the bulk channel brought others, and as many more as are still due.** So
something of it is missing if the channel was to go on after the span, as it is for a transfer
unless that goes up to the last position of all. -/
theorem covers_iff_of_out {device : DeviceId} {policy : Policy}
    (h : Run (begin device policy) past r) (hout : r.IsOut) :
    ∃ span s base, lastRequest? past = some span ∧ r.journal.current = some s ∧
      standing? past = some base ∧ s.progress.transferred < s.progress.expected ∧
      (s.store.Covers span ↔
        intruders span (sinceRequest past) = strays span (sinceRequest past) +
          (s.progress.expected.toNat - s.progress.transferred.toNat)) ∧
      (r.state.isInProgress → base = span.last.next) ∧
      (span.last < base → ∃ p ∈ span, p ∉ s.store) := by
  obtain ⟨houtstanding, hbalanced⟩ := balanced_of_out h
  obtain ⟨span, s, hb⟩ := hbalanced hout
  obtain ⟨span', s', base, hstanding⟩ := standing_of_out h hout
  obtain rfl : span' = span := Option.some_inj.mp (hstanding.last.symm.trans hb.last)
  obtain rfl : s' = s := Option.some_inj.mp (hstanding.current.symm.trans hb.current)
  have hshort := (houtstanding.awaiting hout hb.current).short
  have hlt := UInt32.lt_iff_toNat_lt.mp hshort
  have hbalance := hb.balance
  refine ⟨_, _, base, hb.last, hb.current, hstanding.asked, hshort, ?_, hstanding.transfer, ?_⟩
  · rw [Store.covers_iff, ← Finset.card_eq_zero]
    omega
  · intro hbelow
    have hnone := hstanding.aside hbelow
    obtain ⟨n, hn⟩ := Finset.card_pos.mp
      (show 0 < (s'.store.missing span').card by omega)
    obtain ⟨p, hp, rfl⟩ := Span.exists_of_mem_numbers (Finset.mem_sdiff.mp hn).1
    exact ⟨p, hp, (Store.mem_missing.mp hn).2⟩

/-- The hole at 1 and 2 is given up, and is asked for again when the device repeats its first record.
The bulk channel brings a record from elsewhere, and the cursor channel fills the hole. -/
def filledBesideStray : List Inbound :=
  [Device.standard.start (pos 0) (pos 0), Device.standard.bulk (pos 0),
    Device.standard.cursor (pos 3), Device.standard.cancel, Device.standard.cursor (pos 0),
    Device.standard.bulk (pos 7), Device.standard.cursor (pos 1), Device.standard.cursor (pos 2)]

/-- All of the hole is held while its request is out: the cursor channel brought two of its
positions, the bulk channel brought another one, and one is still due. -/
theorem covers_iff_with_intruders :
    ∃ past r gap s base, Run (begin Device.standard.id .standard) past r ∧ r.IsOut ∧
      gap = Script.span 1 2 ∧ intruders gap (sinceRequest past) = 2 ∧
      strays gap (sinceRequest past) = 1 ∧ s.store.Covers gap ∧
      lastRequest? past = some gap ∧ r.journal.current = some s ∧ standing? past = some base ∧
      s.progress.transferred < s.progress.expected ∧
      (s.store.Covers gap ↔
        intruders gap (sinceRequest past) = strays gap (sinceRequest past) +
          (s.progress.expected.toNat - s.progress.transferred.toNat)) ∧
      (r.state.isInProgress → base = gap.last.next) ∧
      (gap.last < base → ∃ p ∈ gap, p ∉ s.store) := by
  have hrun := run_rehearse .standard filledBesideStray
  have hout : (rehearse .standard filledBesideStray).2.IsOut := .inr (by decide)
  obtain ⟨gap, s, base, hlast, hs, hbase, hshort, hcovers, hrest⟩ := covers_iff_of_out hrun hout
  have hasked : lastRequest? (rehearse .standard filledBesideStray).1 = some (Script.span 1 2) := by
    decide
  obtain rfl : gap = Script.span 1 2 := Option.some_inj.mp (hlast.symm.trans hasked)
  have hintruders : intruders (Script.span 1 2)
      (sinceRequest (rehearse .standard filledBesideStray).1) = 2 := by decide
  have hstrays : strays (Script.span 1 2)
      (sinceRequest (rehearse .standard filledBesideStray).1) = 1 := by decide
  have hdue : (rehearse .standard filledBesideStray).2.journal.current.all fun s =>
      s.progress.expected.toNat - s.progress.transferred.toNat = 1 := by decide
  rw [hs] at hdue
  have hheld : s.store.Covers (Script.span 1 2) := by
    rw [hcovers, hintruders, hstrays, of_decide_eq_true hdue]
  exact ⟨_, _, _, s, base, hrun, hout, rfl, hintruders, hstrays, hheld, hlast, hs, hbase, hshort,
    hcovers, hrest⟩

/-- The hole at 1 is given up, is asked for again when the device repeats its first record, and is
then filled by the cursor channel. -/
def filledByCursor : List Inbound :=
  [Device.standard.start (pos 0) (pos 0), Device.standard.bulk (pos 0),
    Device.standard.cursor (pos 2), Device.standard.cancel, Device.standard.cursor (pos 0),
    Device.standard.cursor (pos 1)]

/-- Then all of the hole is held, and the request for it is still out. -/
theorem held_while_out :
    ¬ ∀ (past : List Moment) (r : Reconciler) (span : Span),
      Run (begin Device.standard.id .standard) past r → r.IsOut → lastRequest? past = some span →
        ∃ p ∈ span, r.holds p = false := by
  intro hall
  have hrun := run_rehearse .standard filledByCursor
  obtain ⟨p, hp, hmissing⟩ := hall _ _ (span 1 1) hrun (.inr (by decide)) (by decide)
  obtain rfl : p = pos 1 := Position.ext (Nat.le_antisymm hp.2 hp.1)
  have hheld : (rehearse .standard filledByCursor).2.holds (pos 1) := by decide
  rw [hheld] at hmissing
  cases hmissing

end Reconciler

end Logbook
