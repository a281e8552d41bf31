import Logbook.Proofs.Reconciler.Convergence
import Logbook.Proofs.Reconciler.Requests

/-!
# The answers to a transfer

A device may answer a request in any order, and with the same record more than once. What comes of
the answers to a transfer depends on nothing but the set of their positions: the transfer goes on
as long as one of its positions is missing, it is over with the last one, and then nothing is sent
any more.

- `Session.fresh`: the positions of answers that the session did not hold.
- `Reconciler.Fetching`: the state tells how far a transfer has come, or that it is over.
- `Reconciler.Fetching.answer`: every answer keeps it so.
- `Reconciler.Answered`: what has come of the answers of a list.
- `Reconciler.arrivals_in_any_order`: this is what comes of them, whatever their order.
-/

namespace Logbook

open Rehearsal Script

namespace Session

variable {s t : Session} {span : Span} {ys zs : List (Instant × Record)}

/-- The positions of the answers that the session did not hold, as numbers. -/
def fresh (s : Session) (ys : List (Instant × Record)) : Finset ℕ :=
  (ys.map (·.2.position.toNat)).toFinset \ s.store.numbers

theorem mem_fresh {n : ℕ} :
    n ∈ s.fresh ys ↔ (∃ y ∈ ys, y.2.position.toNat = n) ∧ n ∉ s.store.numbers := by
  rw [fresh, Finset.mem_sdiff, List.mem_toFinset, List.mem_map]

/-- Neither the order nor the number of the answers counts. -/
theorem fresh_congr (s : Session)
    (h : ∀ p, (∃ y ∈ ys, y.2.position = p) ↔ ∃ z ∈ zs, z.2.position = p) :
    s.fresh ys = s.fresh zs := by
  ext n
  rw [mem_fresh, mem_fresh]
  refine and_congr_left fun _ => ⟨?_, ?_⟩
  · rintro ⟨y, hy, rfl⟩
    obtain ⟨z, hz, he⟩ := (h _).mp ⟨y, hy, rfl⟩
    exact ⟨z, hz, congrArg Position.toNat he⟩
  · rintro ⟨z, hz, rfl⟩
    obtain ⟨y, hy, he⟩ := (h _).mpr ⟨z, hz, rfl⟩
    exact ⟨y, hy, congrArg Position.toNat he⟩

/-- What was missing of the span is still missing, or was brought by the answers. -/
theorem card_fresh (hys : ∀ y ∈ ys, y.2.position ∈ span)
    (hheld : ∀ p, p ∈ t.store ↔ p ∈ s.store ∨ ∃ y ∈ ys, y.2.position = p) :
    (t.store.missing span).card + (s.fresh ys).card = (s.store.missing span).card := by
  have hmissing : t.store.missing span = s.store.missing span \ s.fresh ys := by
    ext n
    rw [Finset.mem_sdiff, mem_fresh]
    constructor
    · intro hn
      obtain ⟨p, hp, hlacks, rfl⟩ := Store.exists_of_mem_missing hn
      have hnot := mt (hheld p).mpr hlacks
      refine ⟨Store.mem_missing.mpr ⟨hp, fun hold => hnot (.inl hold)⟩, ?_⟩
      rintro ⟨⟨y, hy, he⟩, -⟩
      exact hnot (.inr ⟨y, hy, Position.ext he⟩)
    · rintro ⟨hn, hnot⟩
      obtain ⟨p, hp, rfl⟩ := Span.exists_of_mem_numbers (Finset.mem_sdiff.mp hn).1
      refine Store.mem_missing.mpr ⟨hp, ?_⟩
      intro hpt
      have hnew := (Finset.mem_sdiff.mp hn).2
      rcases (hheld p).mp hpt with hold | ⟨y, hy, rfl⟩
      · exact hnew (Store.mem_numbers.mpr hold)
      · exact hnot ⟨⟨y, hy, rfl⟩, hnew⟩
  have hsub : s.fresh ys ⊆ s.store.missing span := by
    intro n hn
    obtain ⟨⟨y, hy, rfl⟩, hnew⟩ := mem_fresh.mp hn
    exact Finset.mem_sdiff.mpr ⟨Span.mem_numbers.mpr (hys y hy), hnew⟩
  rw [hmissing]
  exact Finset.card_sdiff_add_card_eq_card hsub

end Session

namespace Reconciler

variable {r : Reconciler} {s t t' : Session} {span : Span} {x : Record}
  {ys zs : List (Instant × Record)} {device : DeviceId}

/-! ## One answer -/

/-- A transfer of the span is running, or all of the span is held and the transfer is over. -/
structure Fetching (r : Reconciler) (span : Span) (s : Session) : Prop where
  current : r.journal.current = some s
  free : r.backfill = none
  accounts : s.Accounts span
  requested : s.progress.requested.toNat = span.size
  state : r.state =
    if s.progress.isComplete then .ofStatus s.status
    else .inProgress s.progress.transferred s.progress.requested

namespace Fetching

theorem inProgress (h : Fetching r span s) (hopen : ¬ s.progress.isComplete) :
    r.state = .inProgress s.progress.transferred s.progress.requested := by
  rw [h.state, if_neg hopen]

theorem complete (h : Fetching r span s) (hdone : s.progress.isComplete) :
    r.state = .ofStatus s.status := by
  rw [h.state, if_pos hdone]

/-- An answer that comes when all of the span is held changes nothing that is told. -/
theorem repeated (h : Fetching r span s) (hdone : s.progress.isComplete) (hx : x.position ∈ span)
    (hset : x.position.IsSet) (now : Instant) :
    ∃ a, r.handle now ⟨r.device, .bulk x⟩ = .ok a ∧ a.next.device = r.device ∧
      Fetching a.next span (s.receiveBulk x) ∧ a.sent = [] := by
  have hst := h.complete hdone
  have hcomplete : r.state.isComplete := by
    rw [hst]
    rfl
  have haccounts := h.accounts.receiveBulk hx hset
  have hcovers := h.accounts.isComplete_iff.mp hdone
  have hstore := Session.store_receiveBulk_of_isSet s hset
  have hsame : (s.receiveBulk x).status = s.status := by
    refine Session.status_congr (Session.id_receiveBulk s x) ?_
    intro p
    rw [hstore, Store.mem_insert, or_iff_right_of_imp]
    rintro rfl
    exact hcovers _ hx
  obtain ⟨a, ha, hnext, hsent⟩ := exists_added h.current hcomplete h.free now x
  rw [hsame] at hnext hsent
  refine ⟨a, ha, ?_, ?_, ?_⟩
  · rw [hnext]
    rfl
  · rw [hnext]
    refine ⟨rfl, h.free, haccounts, ?_, ?_⟩
    · rw [Session.requested_receiveBulk]
      exact h.requested
    · have hstill : (s.receiveBulk x).store.Covers span := by
        rw [hstore]
        exact hcovers.insert x
      rw [if_pos (haccounts.isComplete_iff.mpr hstill), hsame]
      exact state_refreshed_of_eq hst
  · rw [hsent]
    exact refreshSent_of_eq hst

/-- An answer that comes while something is missing is stored, and ends the transfer if it was the
last one. -/
theorem counted (h : Fetching r span s) (hopen : ¬ s.progress.isComplete) (hx : x.position ∈ span)
    (hset : x.position.IsSet) (now : Instant) :
    ∃ a t, r.handle now ⟨r.device, .bulk x⟩ = .ok a ∧ a.next.device = r.device ∧
      Fetching a.next span t ∧ t.store = (s.receiveBulk x).store ∧ t.id = s.id ∧
      t.progress.expected = s.progress.expected ∧ requestsOf a.sent = [] := by
  have hrunning : r.state.isInProgress := by
    rw [h.inProgress hopen]
    rfl
  have haccounts := h.accounts.receiveBulk hx hset
  have hrequested : (s.receiveBulk x).progress.requested.toNat = span.size := by
    rw [Session.requested_receiveBulk]
    exact h.requested
  have hid := Session.id_receiveBulk s x
  have hexpected := Session.expected_receiveBulk s x
  obtain ⟨a, ha, hstep⟩ := exists_react r now (.bulk x)
  have hquiet := hstep.asks.eq_nil Bool.false_ne_true Bool.false_ne_true
  have hnext := hstep.answer hrunning h.current
  by_cases hdone : (s.receiveBulk x).progress.isComplete
  · rw [if_pos hdone] at hnext
    refine ⟨a, (s.receiveBulk x).finish, ha, hstep.keeps_device, ?_, rfl, hid, hexpected, hquiet⟩
    rw [hnext]
    exact ⟨rfl, h.free, haccounts, hrequested, (if_pos hdone).symm⟩
  · rw [if_neg hdone] at hnext
    refine ⟨a, s.receiveBulk x, ha, hstep.keeps_device, ?_, rfl, hid, hexpected, hquiet⟩
    rw [hnext]
    exact ⟨rfl, h.free, haccounts, hrequested, (if_neg hdone).symm⟩

/-- **Every answer is stored**, and asks for nothing. Once all of the span is held, nothing is sent
over it. -/
theorem answer (h : Fetching r span s) (hx : x.position ∈ span) (hset : x.position.IsSet)
    (now : Instant) :
    ∃ a t, r.handle now ⟨r.device, .bulk x⟩ = .ok a ∧ a.next.device = r.device ∧
      Fetching a.next span t ∧ t.store = s.store.insert x ∧ t.id = s.id ∧
      t.progress.expected = s.progress.expected ∧ requestsOf a.sent = [] ∧
      (s.store.Covers span → a.sent = []) := by
  have hstore := Session.store_receiveBulk_of_isSet s hset
  by_cases hdone : s.progress.isComplete
  · obtain ⟨a, ha, hdevice, hnext, hsent⟩ := h.repeated hdone hx hset now
    refine ⟨a, _, ha, hdevice, hnext, hstore, Session.id_receiveBulk s x,
      Session.expected_receiveBulk s x, ?_, fun _ => hsent⟩
    rw [hsent]
    rfl
  · obtain ⟨a, t, ha, hdevice, hnext, hsame, hid, hexpected, hquiet⟩ :=
      h.counted hdone hx hset now
    exact ⟨a, t, ha, hdevice, hnext, hsame.trans hstore, hid, hexpected, hquiet,
      fun hcovers => absurd (h.accounts.isComplete_iff.mpr hcovers) hdone⟩

end Fetching

/-! ## All answers -/

/-- What has come of answers to a transfer of the span: `s` is the session as the transfer began,
`r` the reconciler after the answers and `t` its session. -/
structure Answered (r : Reconciler) (span : Span) (s : Session) (ys : List (Instant × Record))
    (t : Session) : Prop where
  current : r.journal.current = some t
  id : t.id = s.id
  held : ∀ p, p ∈ t.store ↔ p ∈ s.store ∨ ∃ y ∈ ys, y.2.position = p
  /-- As long as something is missing, the new positions are told. -/
  running : ¬ t.store.Covers span → ∃ transferred requested,
    r.state = .inProgress transferred requested ∧ transferred.toNat = (s.fresh ys).card ∧
      requested.toNat = span.size
  /-- With the last one the state tells the session. -/
  finished : t.store.Covers span → r.state = .ofStatus t.status
  /-- One more answer asks for nothing, and nothing is sent over it once all is held. -/
  more : ∀ now x, x.position ∈ span → ∃ a, r.handle now ⟨r.device, .bulk x⟩ = .ok a ∧
    requestsOf a.sent = [] ∧ (t.store.Covers span → a.sent = [])

/-- A transfer that begins is running. -/
theorem fetching_asked {p : Position} (hs : r.journal.current = some (s.asked span p))
    (hfree : r.backfill = none) (hset : span.last.IsSet)
    (hopen : (s.asked span p).progress.isComplete = false)
    (hst : r.state = .inProgress 0 (.ofNat span.size)) : Fetching r span (s.asked span p) where
  current := hs
  free := hfree
  accounts := Session.accounts_asked hset p
  requested := Session.requested_asked hset p
  state := by
    rw [hopen]
    exact hst

/-- A transfer that is running after it was started has just begun. -/
theorem Step.begun {now : Instant} {first last : Position} {info : SessionInfo} {q : Reconciler}
    {sent : List Outbound} (h : Step r (.event now ⟨device, .start first last info⟩) q sent)
    (hst : q.state.isInProgress) :
    ∃ (span : Span) (s : Session) (p : Position), requestsOf sent = [span] ∧ span.last.IsSet ∧
      Fetching q span (s.asked span p) := by
  cases h with
  | ignored hquiet => exact hquiet.elim
  | unneeded | covered => cases hst
  | @asked _ _ _ _ s span hs hneed hopen =>
    obtain ⟨-, rfl, hset⟩ := ordered_of_needed? hneed
    refine ⟨span, s, span.last.next, ?_, hset, fetching_asked rfl rfl hset hopen rfl⟩
    exact congrArg (span :: ·) (requestsOf_announce r _)

/-- Answers are all stored, and the state goes with them. -/
theorem Fetching.answers {p : Position} (h : Fetching r span (s.asked span p))
    (hset : span.last.IsSet) (hys : ∀ y ∈ ys, y.2.position ∈ span) :
    ∃ t, Answered (r.replay (answering r.device ys)).2 span (s.asked span p) ys t := by
  obtain ⟨t, ⟨hfetching, hid, hexpected⟩, hheld⟩ := exists_answered
    (P := fun r t => Fetching r span t ∧ t.id = (s.asked span p).id ∧
      t.progress.expected = (s.asked span p).progress.expected)
    (fun ⟨h, hid, hexpected⟩ hx hxset now => by
      obtain ⟨a, t, ha, hdevice, hnext, hstore, hid', hexpected', -⟩ := h.answer hx hxset now
      exact ⟨a, t, ha, hdevice, ⟨hnext, hid'.trans hid, hexpected'.trans hexpected⟩, hstore⟩)
    hset ⟨h, rfl, rfl⟩ hys
  refine ⟨t, hfetching.current, hid, hheld, ?_, ?_, ?_⟩
  · intro hmissing
    have hopen := mt hfetching.accounts.isComplete_iff.mp hmissing
    have haccounts := hfetching.accounts
    have hcard := Session.card_fresh hys hheld
    unfold Session.Accounts at haccounts
    rw [hexpected, Session.expected_asked hset] at haccounts
    rw [Session.store_asked] at hcard
    exact ⟨_, _, hfetching.inProgress hopen, by omega, hfetching.requested⟩
  · intro hcovers
    exact hfetching.complete (hfetching.accounts.isComplete_iff.mpr hcovers)
  · intro now x hx
    obtain ⟨a, -, ha, -, -, -, -, -, hquiet, hover⟩ :=
      hfetching.answer hx (Span.isSet_of_mem hset hx) now
    exact ⟨a, ha, hquiet, hover⟩

/-- Only the set of the positions counts. -/
theorem Answered.state_congr {q : Reconciler} (h : Answered r span s ys t)
    (h' : Answered q span s zs t')
    (hsame : ∀ p, (∃ y ∈ ys, y.2.position = p) ↔ ∃ z ∈ zs, z.2.position = p) :
    r.state = q.state := by
  have hheld : ∀ p, p ∈ t.store ↔ p ∈ t'.store := by
    intro p
    rw [h.held, h'.held, hsame]
  have hcovers : t.store.Covers span ↔ t'.store.Covers span :=
    forall₂_congr fun p _ => hheld p
  by_cases hdone : t.store.Covers span
  · rw [h.finished hdone, h'.finished (hcovers.mp hdone)]
    exact congrArg _ (Session.status_congr (h.id.trans h'.id.symm) hheld)
  · obtain ⟨transferred, requested, hst, hcount, hsize⟩ := h.running hdone
    obtain ⟨transferred', requested', hst', hcount', hsize'⟩ := h'.running (mt hcovers.mpr hdone)
    have htransferred : transferred = transferred' :=
      UInt32.toNat_inj.mp (by rw [hcount, hcount', Session.fresh_congr s hsame])
    have hrequested : requested = requested' := UInt32.toNat_inj.mp (hsize.trans hsize'.symm)
    rw [hst, hst', htransferred, hrequested]

/-- **The order of the answers to a transfer does not matter, nor does their number.** When a
transfer begins, one span is asked for. Whatever the session holds then, and whatever answers of the
span come, the state tells how many new positions they brought, as long as one of the span is
missing; with the last one it tells the session; after that nothing is sent; and no answer asks for
anything. Answers with the same positions lead to the same state. -/
theorem arrivals_in_any_order (r : Reconciler) (now : Instant) (first last : Position)
    (info : SessionInfo) :
    ∃ a, r.handle now ⟨r.device, .start first last info⟩ = .ok a ∧
      (a.next.state.isInProgress → ∃ span s, requestsOf a.sent = [span] ∧
        a.next.journal.current = some s ∧
        (∀ ys, (∀ y ∈ ys, y.2.position ∈ span) →
          ∃ t, Answered (a.next.replay (answering r.device ys)).2 span s ys t) ∧
        ∀ ys zs, (∀ y ∈ ys, y.2.position ∈ span) →
          (∀ p, (∃ y ∈ ys, y.2.position = p) ↔ ∃ z ∈ zs, z.2.position = p) →
          (a.next.replay (answering r.device ys)).2.state =
            (a.next.replay (answering r.device zs)).2.state) := by
  obtain ⟨a, ha, hstep⟩ := exists_react r now (.start first last info)
  refine ⟨a, ha, ?_⟩
  intro hrunning
  obtain ⟨span, s, p, hrequest, hset, hfetching⟩ := hstep.begun hrunning
  have hall : ∀ ys, (∀ y ∈ ys, y.2.position ∈ span) → ∃ t,
      Answered (a.next.replay (answering r.device ys)).2 span (s.asked span p) ys t := by
    intro ys hys
    rw [← hstep.keeps_device]
    exact hfetching.answers hset hys
  refine ⟨span, _, hrequest, hfetching.current, hall, ?_⟩
  intro ys zs hys hsame
  have hzs : ∀ z ∈ zs, z.2.position ∈ span := by
    intro z hz
    obtain ⟨y, hy, he⟩ := (hsame _).mpr ⟨z, hz, rfl⟩
    rw [← he]
    exact hys y hy
  obtain ⟨t, ht⟩ := hall ys hys
  obtain ⟨t', ht'⟩ := hall zs hzs
  exact ht.state_congr ht' hsame

/-- The first transfer is cut short when the records at 0 and 2 have come. -/
def cutInTwo : List Inbound :=
  [Device.standard.start (pos 0) (pos 2), Device.standard.bulk (pos 0),
    Device.standard.bulk (pos 2), Device.standard.link false]

/-- Answers at the given positions. -/
def answersAt (ns : List Nat) : List (Instant × Record) :=
  ns.map fun n => (now, Device.record (pos n))

/-- The next transfer asks for the positions from 1 to 4, of which that at 2 is held. The other
three come out of order, two of them twice. -/
theorem arrivals_of_three_records :
    ∃ past r a s, Run (begin Device.standard.id .standard) past r ∧
      r.handle now (Device.standard.start (pos 0) (pos 4)) = .ok a ∧
      requestsOf a.sent = [Script.span 1 4] ∧ a.next.journal.current = some s ∧
      (∃ t, Answered (a.next.replay (answering r.device (answersAt [4, 1, 4]))).2
        (Script.span 1 4) s (answersAt [4, 1, 4]) t) ∧
      (a.next.replay (answering r.device (answersAt [4, 1, 4]))).2.state = .inProgress 2 4 ∧
      (∃ t, Answered (a.next.replay (answering r.device (answersAt [4, 1, 4, 3, 1]))).2
        (Script.span 1 4) s (answersAt [4, 1, 4, 3, 1]) t) ∧
      (a.next.replay (answering r.device (answersAt [4, 1, 4, 3, 1]))).2.state =
        complete 0 4 5 := by
  have hrun := run_rehearse .standard cutInTwo
  obtain ⟨a, ha, hbegun⟩ := arrivals_in_any_order (rehearse .standard cutInTwo).2 now (pos 0)
    (pos 4) Device.standard.info
  have hnext : (rehearse .standard cutInTwo).2.after
      (.event now (Device.standard.start (pos 0) (pos 4))) = a.next := after_of_ok ha
  have hstate : a.next.state.isInProgress := by
    rw [← hnext]
    decide
  have hsent : requestsOf a.sent = [Script.span 1 4] := of_decide_eq_true
    (of_handle (P := fun b => requestsOf b.sent = [Script.span 1 4]) ha (by decide))
  obtain ⟨span, s, hrequest, hs, hanswered, -⟩ := hbegun hstate
  obtain rfl : span = Script.span 1 4 := List.singleton_inj.mp (hrequest.symm.trans hsent)
  refine ⟨_, _, a, s, hrun, ha, hsent, hs, hanswered _ (by decide), ?_, hanswered _ (by decide),
    ?_⟩
  · rw [← hnext]
    decide
  · rw [← hnext]
    decide

end Reconciler

end Logbook
