import Logbook.Proofs.Reconciler.Patience
import Logbook.Proofs.Reconciler.Repair
import Logbook.Proofs.Reconciler.Standing
import Logbook.Proofs.Store.Holes

/-!
# What is asked for after a stall

A transfer that stalls leaves positions of its span missing, wherever the losses were. The next
record of the cursor channel that is ahead of everything makes the reconciler look for the first
hole. What was lost is in it, unless it lies below all that is held or above another hole.

- `Moment.isTick`, `Moment.isQuiet`: the moments that lead to a stall, and those after it at which
  no hole is looked for.
- `Reconciler.Waiting`: a transfer is over, and no hole was looked for since.
- `Reconciler.waiting_of_stalled`: a stall leaves the reconciler so.
- `Reconciler.asked_iff_after_stall`: whether a lost position is asked for next.
-/

namespace Logbook

open Rehearsal Script

/-! ## Holes below a new record -/

namespace Store

variable {s : Store} {x : Record} {p : Position}

/-- A record leaves the holes below it as they are. -/
theorem hole_insert_iff {gap : Span} (hlt : p < x.position) (hgap : gap.last < p) :
    (s.insert x).Hole gap ↔ s.Hole gap := by
  rw [Position.lt_iff] at hlt hgap
  have hold {q : Position} (hq : q.toNat < x.position.toNat) : q ∈ s.insert x ↔ q ∈ s := by
    have hne : q ≠ x.position := by
      rintro rfl
      exact Nat.lt_irrefl _ hq
    rw [mem_insert, or_iff_right hne]
  constructor
  · rintro ⟨hordered, hnot, ⟨q, hq, hbefore⟩, q', hq', hafter⟩
    rw [Position.le_iff] at hordered
    exact ⟨hordered, fun z hz hs => hnot z hz (mem_insert.mpr (.inr hs)),
      ⟨q, (hold (by omega)).mp hq, hbefore⟩, q', (hold (by omega)).mp hq', hafter⟩
  · rintro ⟨hordered, hnot, ⟨q, hq, hbefore⟩, q', hq', hafter⟩
    refine ⟨hordered, ?_, ⟨q, mem_insert.mpr (.inr hq), hbefore⟩, q', mem_insert.mpr (.inr hq'),
      hafter⟩
    intro z hz
    have hle := (Span.mem_iff.mp hz).2
    rw [hold (by omega)]
    exact hnot z hz

theorem last_of_bounded_insert {span : Span} (h : (s.insert x).Bounded span)
    (habove : ∀ q ∈ s, q < x.position) : span.last = x.position := by
  have hle := (h.within _ (mem_insert.mpr (.inl rfl))).2
  rcases mem_insert.mp h.last with he | hin
  · exact he
  · exact absurd (habove _ hin) (Nat.not_lt.mpr hle)

/-- After a record above everything, a missing position is in the first hole exactly when
something below it is held and no other hole is below it. -/
theorem mem_gap?_insert_iff {span : Span} (h : (s.insert x).Bounded span)
    (hset : x.position.IsSet) (habove : ∀ q ∈ s, q < x.position) (hp : p ∉ s)
    (hlt : p < x.position) :
    (∃ gap, (s.insert x).gap? span.first span.last = some gap ∧ p ∈ gap) ↔
      (∃ q ∈ s, q < p) ∧ ∀ gap ∈ s.holes, ¬ gap.last < p := by
  have hlast := last_of_bounded_insert h habove
  have hnew : p ∉ s.insert x := by
    rw [mem_insert, not_or]
    refine ⟨?_, hp⟩
    rintro rfl
    exact Nat.lt_irrefl _ hlt
  rw [h.mem_gap?_iff (hlast ▸ hset) hnew (hlast ▸ Nat.le_of_lt hlt)]
  refine and_congr ⟨fun hfirst => ⟨span.first, ?_, hfirst⟩, ?_⟩ ⟨?_, ?_⟩
  · refine (mem_insert.mp h.first).resolve_left ?_
    intro he
    rw [he] at hfirst
    exact Nat.lt_asymm hlt hfirst
  · rintro ⟨q, hq, hqp⟩
    exact Nat.lt_of_le_of_lt (h.within q (mem_insert.mpr (.inr hq))).1 hqp
  · intro hnone gap hgap hbelow
    exact hnone gap ((hole_insert_iff hlt hbelow).mpr (mem_holes.mp hgap)) hbelow
  · intro hnone gap hgap hbelow
    exact hnone gap (mem_holes.mpr ((hole_insert_iff hlt hbelow).mp hgap)) hbelow

end Store

/-! ## Moments around a stall -/

/-- While a transfer is running, the device pushes a record of the session that it is in. -/
def Moment.isTick (m : Moment) : Bool :=
  match m.stimulus with
  | .event _ ⟨_, .cursor _ info⟩ => m.before.state.isInProgress && m.before.journal.isIn info.id
  | _ => false

/-- What happens does not make the reconciler ask for anything: a record of the bulk channel comes,
the caller gives up what is out, or the link is up. -/
def Moment.isQuiet (m : Moment) : Bool :=
  match m.stimulus with
  | .event _ ⟨_, .bulk _⟩ => true
  | .event _ ⟨_, .cancel⟩ => true
  | .event _ ⟨_, .link connected⟩ => connected
  | _ => false

namespace Reconciler

variable {r t q : Reconciler} {s : Session} {u : Stimulus} {a : Reaction} {sent : List Outbound}
  {past ms : List Moment} {wanted : Span} {x : Record} {info : SessionInfo}
  {device : DeviceId} {policy : Policy}

/-! ## The stall -/

/-- A moment that is a tick is one of a broadcast while a transfer is running. -/
theorem exists_of_isTick (h : Moment.isTick ⟨r, u, a⟩) :
    r.state.isInProgress ∧ ∃ now device x info,
      u = .event now ⟨device, .cursor x info⟩ ∧ r.journal.isIn info.id := by
  unfold Moment.isTick at h
  split at h
  · next now d x info heq =>
    rw [Bool.and_eq_true] at h
    exact ⟨h.1, now, d, x, info, heq, h.2⟩
  · cases h

/-- Ticks leave the request that is out the last one, and give up no hole. -/
theorem kept_of_ticks (h : Run r ms t) (htick : ∀ m ∈ ms, m.isTick) (past : List Moment) :
    lastRequest? (ms ++ past) = lastRequest? past ∧ t.floor = r.floor := by
  revert htick
  refine h.invariant (I := fun ms t => (∀ m ∈ ms, m.isTick) →
    lastRequest? (ms ++ past) = lastRequest? past ∧ t.floor = r.floor) ?_ ?_
  · intro
    exact ⟨rfl, rfl⟩
  · intro ms t u a ih hstep htick
    obtain ⟨hlast, hfloor⟩ := ih fun m hm => htick m (List.mem_cons_of_mem _ hm)
    obtain ⟨hst, now, d, x, info, rfl, hin⟩ := exists_of_isTick (htick _ List.mem_cons_self)
    obtain ⟨s, hs, hid⟩ := isIn_iff.mp hin
    obtain ⟨hsent, hnext⟩ := hstep.tick hst hs hid
    refine ⟨?_, ?_⟩
    · rw [List.cons_append, lastRequest?_of_quiet hsent]
      exact hlast
    · rw [hnext]
      split <;> exact hfloor

/-- The transfer of a span is over, and the cursor channel follows the span. No hole is out, and
none was given up. -/
structure Waiting (r : Reconciler) (wanted : Span) (s : Session) : Prop where
  current : r.journal.current = some s
  complete : r.state.isComplete
  free : r.backfill = none
  floor : r.floor = .zero
  follows : s.Follows wanted.last.next

/-- **A stall leaves the cursor channel after the span that was wanted.** -/
theorem waiting_of_stalled (h : Run (begin device policy) past r) (hfloor : r.floor = .zero)
    (hst : r.state.isInProgress) (hwanted : lastRequest? past = some wanted) (hms : Run r ms t)
    (htick : ∀ m ∈ ms, m.isTick) (ht : t.state.isComplete) : ∃ s, Waiting t wanted s := by
  induction hms with
  | start => exact absurd ht (UploadState.not_isComplete_of_isInProgress hst)
  | refused _ _ ih => exact ih htick ht
  | @reacted ms p u a hp hu =>
    have hbefore : ∀ m ∈ ms, m.isTick := fun m hm => htick m (List.mem_cons_of_mem _ hm)
    obtain ⟨hlast, hkept⟩ := kept_of_ticks hp hbefore past
    obtain ⟨hrunning, now, d, x, info, rfl, hin⟩ := exists_of_isTick (htick _ List.mem_cons_self)
    obtain ⟨s, hs, hid⟩ := isIn_iff.mp hin
    obtain ⟨-, hnext⟩ := (step_of_apply hu).tick hrunning hs hid
    -- up to the last tick the cursor channel follows the transfer
    have hrun := h.append hp
    obtain ⟨span, s', base, hstanding⟩ := standing_of_out hrun (.inl hrunning)
    obtain rfl : s' = s := Option.some_inj.mp (hstanding.current.symm.trans hs)
    obtain rfl : span = wanted :=
      Option.some_inj.mp (hstanding.last.symm.trans (hlast.trans hwanted))
    obtain rfl := hstanding.transfer hrunning
    have hfree := ((balanced_of_out hrun).1.of_current hs hrunning).1
    have hfollows := hstanding.follows.receiveCursor x
    rw [hnext] at ht ⊢
    split at ht
    · next hstalled =>
      rw [if_pos hstalled]
      exact ⟨_, rfl, rfl, hfree, hkept.trans hfloor, hfollows⟩
    · exact absurd ht (UploadState.not_isComplete_of_isInProgress hrunning)

/-! ## The time after it -/

/-- The reconciler goes on waiting while no hole is looked for. -/
theorem Waiting.quiet (h : Waiting r wanted s) (hstep : Step r u a.next a.sent)
    (hquiet : Moment.isQuiet ⟨r, u, a⟩) : ∃ s, Waiting a.next wanted s := by
  obtain ⟨q, sent, notes⟩ := a
  have hnot : ¬ r.state.isInProgress := fun hrunning =>
    UploadState.not_isComplete_of_isInProgress hrunning h.complete
  cases hstep with
  | ignored => exact ⟨s, h⟩
  | disconnected => cases hquiet
  | noticed | left | ticked | stalled | settled | repaired => cases hquiet
  | unneeded | covered | asked | reset => cases hquiet
  | delivered _ hrunning => exact absurd hrunning hnot
  | fetched _ hrunning => exact absurd hrunning hnot
  | cancelled _ hrunning => exact absurd hrunning hnot
  | filling _ _ hgap | filled _ _ hgap | dropped _ hgap =>
    rw [h.free] at hgap
    cases hgap
  | late _ hidle =>
    have hcomplete := h.complete
    rcases hidle with he | he <;> rw [he] at hcomplete <;> cases hcomplete
  | added hs =>
    obtain rfl := Option.some_inj.mp (hs.symm.trans h.current)
    exact ⟨_, rfl, isComplete_refreshed (by exact h.complete) _, h.free, h.floor,
      h.follows.receiveBulk _⟩

theorem Waiting.run (h : Waiting r wanted s) (hms : Run r ms q)
    (hquiet : ∀ m ∈ ms, m.isQuiet) : ∃ s, Waiting q wanted s := by
  revert hquiet
  refine hms.invariant (I := fun ms q => (∀ m ∈ ms, m.isQuiet) → ∃ s, Waiting q wanted s) ?_ ?_
  · intro
    exact ⟨s, h⟩
  · intro ms q u a ih hstep hquiet
    obtain ⟨s, hs⟩ := ih fun m hm => hquiet m (List.mem_cons_of_mem _ hm)
    exact hs.quiet hstep (hquiet _ List.mem_cons_self)

/-! ## The next record -/

/-- What is asked for when a record comes that is ahead of everything is the first hole below
it. -/
theorem Waiting.requests (h : Waiting r wanted s) (hon : r.backfillOnGap) (hid : s.id = info.id)
    (hset : x.position.IsSet) (hlast : wanted.last < x.position)
    (habove : ∀ p ∈ s.store, p < x.position) (now : Instant) :
    ∃ a span, r.handle now ⟨r.device, .cursor x info⟩ = .ok a ∧
      (s.store.insert x).Bounded span ∧
      requestsOf a.sent = ((s.store.insert x).gap? span.first span.last).toList := by
  have hle : wanted.last.next ≤ x.position := by
    rw [Position.lt_iff] at hlast
    rw [Position.le_iff, Position.toNat_next]
    omega
  have hstore : (s.receiveCursor x).store = s.store.insert x := by
    rw [Session.store_receiveCursor, if_pos (h.follows.accepts hset hle habove)]
  obtain ⟨a, ha, hsent, -⟩ := exists_mended h.current hid h.complete h.free now x
  obtain ⟨span, hspan, -⟩ :=
    Store.exists_bounded (s := s.store.insert x) (Store.mem_insert.mpr (.inl rfl))
  have hend := Store.last_of_bounded_insert hspan habove
  have hgap := repairable?_of_floor_zero (r := r.enter (s.receiveCursor x)) hon h.floor rfl rfl
    (hstore ▸ hspan) (hend ▸ hset)
  refine ⟨a, span, ha, hspan, ?_⟩
  rw [hsent, hgap, hstore]

/-- **After a stall a lost position is in the span that is asked for next exactly when something
below it is held and no other hole is below it.** The next request is made over a record that is
ahead of the span that was wanted and of all that is held. -/
theorem asked_iff_after_stall (hon : policy.backfillOnGap) (h : Run (begin device policy) past r)
    (hfloor : r.floor = .zero) (hst : r.state.isInProgress)
    (hwanted : lastRequest? past = some wanted) {ts ls : List Moment} (hts : Run r ts t)
    (htick : ∀ m ∈ ts, m.isTick) (ht : t.state.isComplete) (hls : Run t ls q)
    (hquiet : ∀ m ∈ ls, m.isQuiet) {p : Position} (hp : p ∈ wanted) (hlost : ¬ q.holds p)
    (hin : q.journal.isIn info.id) (hset : x.position.IsSet) (hlast : wanted.last < x.position)
    (habove : ∀ p, q.holds p → p < x.position) (now : Instant) :
    ∃ s a, q.journal.current = some s ∧ q.handle now ⟨q.device, .cursor x info⟩ = .ok a ∧
      ((∃ gap, requestsOf a.sent = [gap] ∧ p ∈ gap) ↔
        (∃ lower ∈ s.store, lower < p) ∧ ∀ gap ∈ s.store.holes, ¬ gap.last < p) := by
  obtain ⟨s₀, hs₀⟩ := waiting_of_stalled h hfloor hst hwanted hts htick ht
  obtain ⟨s, hs⟩ := hs₀.run hls hquiet
  obtain ⟨s', hs', hid⟩ := isIn_iff.mp hin
  obtain rfl : s' = s := Option.some_inj.mp (hs'.symm.trans hs.current)
  rw [holds_of_current hs'] at hlost
  have habove : ∀ z ∈ s'.store, z < x.position := fun z hz =>
    habove z ((holds_of_current hs').mpr hz)
  have hon : q.backfillOnGap := by
    rw [((h.append hts).append hls).backfillOnGap]
    exact hon
  obtain ⟨a, span, ha, hspan, hsent⟩ := hs.requests hon hid hset hlast habove now
  have hlt : p < x.position := Nat.lt_of_le_of_lt hp.2 hlast
  refine ⟨s', a, hs', ha, ?_⟩
  rw [← Store.mem_gap?_insert_iff hspan hset habove hlost hlt, hsent]
  simp only [Option.toList_eq_singleton_iff]

/-- The transfer of 0 to 2, of which only the first record comes. -/
def cutShort : List Inbound := [Device.standard.start (pos 0) (pos 2), Device.standard.bulk (pos 0)]

/-- The record at 3 makes it stall, and the one at 4 makes the reconciler look for the loss. -/
theorem asked_iff_after_cut_short :
    ∃ past ts r t s a, Run (begin Device.standard.id impatient) past r ∧ r.floor = .zero ∧
      r.state.isInProgress ∧ lastRequest? past = some (span 0 2) ∧ Run r ts t ∧
      (∀ m ∈ ts, m.isTick) ∧ t.state.isComplete ∧ t.journal.current = some s ∧
      t.handle now (Device.standard.cursor (pos 4)) = .ok a ∧
      ((∃ gap, requestsOf a.sent = [gap] ∧ pos 1 ∈ gap) ↔
        (∃ lower ∈ s.store, lower < pos 1) ∧ ∀ gap ∈ s.store.holes, ¬ gap.last < pos 1) := by
  have hrun := run_rehearse impatient cutShort
  have hwanted : lastRequest? (rehearse impatient cutShort).1 = some (span 0 2) := by decide
  have hts := run_replay (rehearse impatient cutShort).2
    [.event now (Device.standard.cursor (pos 3))]
  have hin : ((rehearse impatient cutShort).2.replay
      [.event now (Device.standard.cursor (pos 3))]).2.journal.isIn Device.standard.info.id := by
    decide
  have hreceived : ∀ p ∈ received (rehearse impatient
      (cutShort ++ [Device.standard.cursor (pos 3)])).1, p < pos 4 := by decide
  have habove := fun p hp => hreceived p (received_of_holds (hrun.append hts) rfl hp)
  obtain ⟨s, a, hs, ha, hasked⟩ := asked_iff_after_stall (p := pos 1) (x := Device.record (pos 4))
    rfl hrun rfl (by decide) hwanted hts (by decide) (by decide) .start (by simp) (by decide)
    (by decide) hin (by decide) (by decide) habove now
  exact ⟨_, _, _, _, s, a, hrun, rfl, by decide, hwanted, hts, by decide, by decide, hs, ha,
    hasked⟩

/-- The transfer of 0 and 1, of which nothing comes. -/
def silence : List Inbound := [Device.standard.start (pos 0) (pos 1)]

/-- Then the record at 2 makes it stall, but the one at 3 does not make the reconciler ask for
anything, because nothing is held below the loss. -/
theorem head_is_not_asked_for :
    ¬ ∀ (past ts : List Moment) (r t : Reconciler) (wanted : Span) (p : Position) (x : Record)
        (info : SessionInfo) (a : Reaction),
      Run (begin Device.standard.id impatient) past r → r.floor = .zero → r.state.isInProgress →
        lastRequest? past = some wanted → Run r ts t → (∀ m ∈ ts, m.isTick) →
          t.state.isComplete → p ∈ wanted → ¬ t.holds p → (∀ q ∈ wanted, q < p → t.holds q) →
            t.journal.isIn info.id → x.position.IsSet → wanted.last < x.position →
              (∀ q, t.holds q → q < x.position) →
                t.handle now ⟨t.device, .cursor x info⟩ = .ok a →
                  ∃ gap, requestsOf a.sent = [gap] ∧ p ∈ gap := by
  intro hall
  have hrun := run_rehearse impatient silence
  have hts := run_replay (rehearse impatient silence).2
    [.event now (Device.standard.cursor (pos 2))]
  have hreceived : ∀ p ∈ received (rehearse impatient
      (silence ++ [Device.standard.cursor (pos 2)])).1, p < pos 3 := by decide
  obtain ⟨a, ha, -⟩ := exists_react ((rehearse impatient silence).2.replay
    [.event now (Device.standard.cursor (pos 2))]).2 now
    (.cursor (Device.record (pos 3)) Device.standard.info)
  have hquiet : requestsOf a.sent = [] := of_decide_eq_true
    (of_handle (P := fun b => requestsOf b.sent = []) ha (by decide))
  have hfirst : ∀ q ∈ span 0 1, q < pos 0 → ((rehearse impatient silence).2.replay
      [.event now (Device.standard.cursor (pos 2))]).2.holds q := by
    intro q _ hq
    exact absurd hq (Nat.not_lt.mpr (Nat.zero_le _))
  have habove := fun p hp => hreceived p (received_of_holds (hrun.append hts) rfl hp)
  obtain ⟨gap, hgap, -⟩ := hall _ _ _ _ (span 0 1) (pos 0) _ _ a hrun rfl (by decide) (by decide)
    hts (by decide) (by decide) (by decide) (by decide) hfirst (by decide) (by decide) (by decide)
    habove ha
  rw [hquiet] at hgap
  cases hgap

end Reconciler

end Logbook
