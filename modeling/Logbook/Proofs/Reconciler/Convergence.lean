import Logbook.Proofs.Reconciler.Outstanding
import Logbook.Proofs.Reconciler.Repair
import Logbook.Proofs.Session.Accounts
import Logbook.Proofs.Session.Operations
import Logbook.Proofs.Store.Holes

/-!
# Holes are filled one after another

While the log is complete, every record of the cursor channel makes the reconciler ask for the
first hole that is left. If the device answers with all of it, there is one hole less, so that
after as many rounds as there were holes nothing is missing of what was held then, or has been added
since.

- `Session.Grows`: a session goes on with what it has, and nothing comes from below it.
- `Reconciler.Tended`: the log is complete, and no hole was given up.
- `Reconciler.Filling`: a hole is out, or it is filled.
- `Reconciler.answering`, `Reconciler.exists_answered`: answers of a device, one after another.
- `Round`, `Reconciler.Admits`, `Reconciler.play`: a record of the cursor channel with the answers
  to what is asked for, and what comes of it.
- `Reconciler.Settled`: what every round leaves behind; `Reconciler.Tended.play`: and one hole less.
- `Reconciler.Healed`: nothing is lost, nothing is missing, and the state tells so.
- `Reconciler.covers_after_rounds`: that is so after as many rounds as there are holes.
-/

namespace Logbook

open Rehearsal Script

/-! ## Sessions that grow -/

/-- The session `t` goes on with what the session `s` has, and holds nothing from below all of
that. -/
structure Session.Grows (s t : Session) : Prop where
  continues : s.Continues t
  above : ∀ q ∈ t.store, ∃ p ∈ s.store, p ≤ q

namespace Session.Grows

variable {s t u : Session} {held span : Span}

theorem of_store (hcontinues : s.Continues t)
    (habove : ∀ q ∈ t.store, q ∈ s.store ∨ ∃ p ∈ s.store, p ≤ q) : s.Grows t where
  continues := hcontinues
  above q hq := by
    rcases habove q hq with hq | hbelow
    · exact ⟨q, hq, Nat.le_refl _⟩
    · exact hbelow

theorem trans (h : s.Grows t) (h' : t.Grows u) : s.Grows u where
  continues := h.continues.trans h'.continues
  above q hq := by
    obtain ⟨p, hp, hpq⟩ := h'.above q hq
    obtain ⟨o, ho, hop⟩ := h.above p hp
    exact ⟨o, ho, Nat.le_trans hop hpq⟩

/-- It grows at its upper end only. -/
theorem first_eq (h : s.Grows t) (hheld : s.store.Bounded held) (hspan : t.store.Bounded span) :
    span.first = held.first := by
  obtain ⟨p, hp, hle⟩ := h.above _ hspan.first
  refine Position.le_antisymm ?_ (Nat.le_trans (hheld.within p hp).1 hle)
  exact (hspan.within _ (h.continues.held _ hheld.first)).1

end Session.Grows

namespace Reconciler

variable {r : Reconciler} {s t : Session} {gap : Span} {x : Record}

/-! ## Logs without a hole -/

/-- The log is complete, holes are filled, and none was given up. -/
structure Tended (r : Reconciler) (s : Session) : Prop where
  current : r.journal.current = some s
  complete : r.state.isComplete
  on : r.backfillOnGap
  floor : r.floor = .zero
  held : ∃ p, p ∈ s.store
  set : ∀ p ∈ s.store, p.IsSet

/-- The hole to be filled next is one of those that are left, and there is none only if none is
left. -/
theorem Tended.repairable? (h : Tended r s) :
    (∃ gap, r.repairable? s.status = some gap ∧ s.store.Hole gap ∧ gap.last.IsSet) ∨
      r.repairable? s.status = none ∧ s.store.holes = [] := by
  obtain ⟨p, hp⟩ := h.held
  obtain ⟨span, hspan, -⟩ := Store.exists_bounded hp
  have hset := h.set _ hspan.last
  rw [repairable?_of_floor_zero h.on h.floor h.current rfl hspan hset]
  cases hgap : s.store.gap? span.first span.last with
  | some gap =>
    obtain ⟨hfirst, hlast⟩ := Store.firstGap_of_gap? hgap
    exact .inl ⟨gap, rfl, hfirst.hole hspan.first hspan.last, hlast⟩
  | none =>
    refine .inr ⟨rfl, (hspan.holes_eq_nil_iff hset).mpr ?_⟩
    rcases Store.gap?_eq_none_iff.mp hgap with hno | hall
    · exact absurd ⟨hspan.ordered, hset⟩ hno
    · exact fun p hp => hall p hp.1 hp.2

theorem Tended.refreshed (h : Tended r s) (status : Status) : Tended (r.refreshed status) s :=
  ⟨h.current, isComplete_refreshed h.complete status, h.on, h.floor, h.held, h.set⟩

/-- Without a hole that is left, the state tells what is held. -/
theorem Tended.state_refreshed (h : Tended r s) (hnone : s.store.holes = []) :
    (r.refreshed s.status).state = .ofStatus s.status := by
  rcases h.repairable? with ⟨gap, -, hgap, -⟩ | ⟨hfree, -⟩
  · have hin := Store.mem_holes.mpr hgap
    rw [hnone] at hin
    exact absurd hin List.not_mem_nil
  · exact state_refreshed_of_none hfree

/-! ## Records that are taken -/

/-- A session that stores one more record with a place in the stream, or nothing, leaves the log
tended. -/
theorem Tended.enter (h : Tended r s)
    (hstore : t.store = s.store ∨ ∃ x, x.position.IsSet ∧ t.store = s.store.insert x) :
    Tended (r.enter t) t := by
  rcases hstore with hstore | ⟨x, hset, hstore⟩
  · exact ⟨rfl, h.complete, h.on, h.floor, hstore ▸ h.held, hstore ▸ h.set⟩
  · obtain ⟨p, hp⟩ := h.held
    refine ⟨rfl, h.complete, h.on, h.floor, ⟨p, ?_⟩, ?_⟩
    · rw [hstore]
      exact Store.mem_insert.mpr (.inr hp)
    · intro q hq
      rw [hstore] at hq
      rcases Store.mem_insert.mp hq with rfl | hq
      · exact hset
      · exact h.set q hq

theorem Tended.receiveBulk (h : Tended r s) (hset : x.position.IsSet) :
    Tended (r.enter (s.receiveBulk x)) (s.receiveBulk x) := by
  exact h.enter (.inr ⟨x, hset, Session.store_receiveBulk_of_isSet s hset⟩)

theorem Tended.receiveCursor (h : Tended r s) (x : Record) :
    Tended (r.enter (s.receiveCursor x)) (s.receiveCursor x) := by
  refine h.enter ?_
  rw [Session.store_receiveCursor]
  split
  · next haccepts => exact .inr ⟨x, haccepts.1, rfl⟩
  · exact .inl rfl

/-! ## Answers -/

/-- A hole is out, and its accounts are kept; or it is filled, and the state tells what is held
unless another hole is left. -/
inductive Filling (r : Reconciler) (gap : Span) (s : Session) : Prop
  | out (hgap : r.backfill = some gap) (haccounts : s.Accounts gap)
      (hshort : s.progress.transferred < s.progress.expected)
  | done (hfree : r.backfill = none) (hcovers : s.store.Covers gap)
      (hpublished : s.store.holes = [] → r.state = .ofStatus s.status)

/-- An answer is stored, and the hole stays out until it is filled. -/
theorem Tended.answer (h : Tended r s) (hfill : Filling r gap s) (hx : x.position ∈ gap)
    (hset : x.position.IsSet) (now : Instant) :
    ∃ a t, r.handle now ⟨r.device, .bulk x⟩ = .ok a ∧ a.next.device = r.device ∧
      ((Tended a.next t ∧ Filling a.next gap t) ∧ s.Continues t) ∧
      t.store = s.store.insert x := by
  have hstore := Session.store_receiveBulk_of_isSet s hset
  have hcontinues := s.continues_receiveBulk x
  have htended := h.receiveBulk hset
  cases hfill with
  | out hgap haccounts =>
    obtain ⟨a, ha, hnext⟩ := exists_filled h.current h.complete hgap now x
    have haccounts := haccounts.receiveBulk hx hset
    by_cases hdone : (s.receiveBulk x).progress.isComplete
    · have hfinished : Tended { r.enter (s.receiveBulk x).finish with backfill := none }
          (s.receiveBulk x).finish := ⟨rfl, h.complete, h.on, h.floor, htended.held, htended.set⟩
      rw [if_pos hdone] at hnext
      refine ⟨a, (s.receiveBulk x).finish, ha, ?_⟩
      rw [hnext]
      exact ⟨rfl, ⟨⟨hfinished.refreshed _,
        .done rfl (haccounts.isComplete_iff.mp hdone) hfinished.state_refreshed⟩,
        hcontinues.trans (.of_eq rfl rfl rfl)⟩, hstore⟩
    · have hopen := Progress.lt_of_open (Bool.not_eq_true _ ▸ hdone)
      rw [if_neg hdone] at hnext
      refine ⟨a, s.receiveBulk x, ha, ?_⟩
      rw [hnext]
      exact ⟨rfl, ⟨⟨htended, .out hgap haccounts hopen⟩, hcontinues⟩, hstore⟩
  | done hfree hcovers hpublished =>
    obtain ⟨a, ha, hnext, -⟩ := exists_added h.current h.complete hfree now x
    have hcovers : (s.receiveBulk x).store.Covers gap := by
      rw [hstore]
      exact hcovers.insert x
    refine ⟨a, s.receiveBulk x, ha, ?_⟩
    rw [hnext]
    exact ⟨rfl, ⟨⟨htended.refreshed _, .done hfree hcovers htended.state_refreshed⟩, hcontinues⟩,
      hstore⟩

/-- The answers of a device, one after another. -/
def answering (device : DeviceId) (ys : List (Instant × Record)) : List Stimulus :=
  ys.map fun y => .event y.1 ⟨device, .bulk y.2⟩

/-- What every answer from a span keeps true while it is stored holds after all of them. -/
theorem exists_answered {P : Reconciler → Session → Prop}
    (hanswer : ∀ {r s} {x : Record}, P r s → x.position ∈ gap → x.position.IsSet → ∀ now,
      ∃ a t, r.handle now ⟨r.device, .bulk x⟩ = .ok a ∧ a.next.device = r.device ∧
        P a.next t ∧ t.store = s.store.insert x)
    (hset : gap.last.IsSet) {ys : List (Instant × Record)} (h : P r s)
    (hys : ∀ y ∈ ys, y.2.position ∈ gap) :
    ∃ t, P (r.replay (answering r.device ys)).2 t ∧
      ∀ p, p ∈ t.store ↔ p ∈ s.store ∨ ∃ y ∈ ys, y.2.position = p := by
  induction ys generalizing r s with
  | nil => exact ⟨s, h, fun p => by simp⟩
  | cons y ys ih =>
    have hx := hys y List.mem_cons_self
    obtain ⟨a, t, ha, hdevice, ht, hstore⟩ := hanswer h hx (Span.isSet_of_mem hset hx) y.1
    obtain ⟨t', ht', hmem⟩ := ih ht fun y hy => hys y (List.mem_cons_of_mem _ hy)
    have hreplay : (r.replay (answering r.device (y :: ys))).2 =
        (a.next.replay (answering a.next.device ys)).2 := by
      rw [hdevice]
      exact replay_cons_of_ok (u := .event y.1 ⟨r.device, .bulk y.2⟩) ha _
    rw [hreplay]
    refine ⟨t', ht', ?_⟩
    intro p
    rw [hmem, hstore, Store.mem_insert, List.exists_mem_cons_iff, or_assoc, or_left_comm,
      eq_comm]

/-- Answers from the hole are all stored. -/
theorem Tended.answers {ys : List (Instant × Record)} (h : Tended r s) (hfill : Filling r gap s)
    (hset : gap.last.IsSet) (hys : ∀ y ∈ ys, y.2.position ∈ gap) :
    ∃ t, ((Tended (r.replay (answering r.device ys)).2 t ∧
      Filling (r.replay (answering r.device ys)).2 gap t) ∧ s.Continues t) ∧
      ∀ p, p ∈ t.store ↔ p ∈ s.store ∨ ∃ y ∈ ys, y.2.position = p := by
  refine exists_answered (P := fun r u => (Tended r u ∧ Filling r gap u) ∧ s.Continues u)
    (fun hu hx hxset now => ?_) hset ⟨⟨h, hfill⟩, .refl s⟩ hys
  obtain ⟨⟨hu, hfill⟩, hcontinues⟩ := hu
  obtain ⟨a, t, ha, hdevice, ⟨ht, hcontinues'⟩, hstore⟩ := hu.answer hfill hx hxset now
  exact ⟨a, t, ha, hdevice, ⟨ht, hcontinues.trans hcontinues'⟩, hstore⟩

/-- What a round leaves behind: the session has grown, no hole is out, and without a hole that is
left the state tells what is held. -/
structure Settled (r : Reconciler) (s t : Session) : Prop where
  tended : Tended r t
  grows : s.Grows t
  free : r.backfill = none
  published : t.store.holes = [] → r.state = .ofStatus t.status

/-- Answers that bring all of a hole take it away. -/
theorem Tended.filled {ys : List (Instant × Record)} (h : Tended r s) (hfill : Filling r gap s)
    (hset : gap.last.IsSet) (hhole : s.store.Hole gap)
    (hys : ∀ p, (∃ y ∈ ys, y.2.position = p) ↔ p ∈ gap) :
    ∃ t, Settled (r.replay (answering r.device ys)).2 s t ∧
      t.store.holes.length + 1 = s.store.holes.length := by
  obtain ⟨t, ⟨⟨ht, hfill⟩, hcontinues⟩, hmem⟩ :=
    h.answers hfill hset fun y hy => (hys _).mp ⟨y, hy, rfl⟩
  have hmem : ∀ p, p ∈ t.store ↔ p ∈ s.store ∨ p ∈ gap := by
    intro p
    rw [hmem, hys]
  have hgrows : s.Grows t := by
    refine .of_store hcontinues fun q hq => ((hmem q).mp hq).imp_right fun hin => ?_
    -- the hole begins right above a held position
    obtain ⟨p, hp, hbefore⟩ := hhole.before
    have hle : gap.first.toNat ≤ q.toNat := hin.1
    exact ⟨p, hp, Position.le_iff.mpr (by omega)⟩
  cases hfill with
  | out _ haccounts hshort =>
    -- the accounts of a hole that is filled are complete
    have hdone := haccounts.isComplete_iff.mpr fun p hp => (hmem p).mpr (.inr hp)
    exact absurd (of_decide_eq_true hdone) (UInt32.not_le.mpr hshort)
  | done hfree _ hpublished =>
    exact ⟨t, ⟨ht, hgrows, hfree, hpublished⟩, Store.length_holes_of_filled hhole hmem⟩

/-- A hole that is asked for is taken away by answers that bring all of it. -/
theorem Tended.fetched {q : Reconciler} {p : Position} {ys : List (Instant × Record)}
    (h : Tended r s) (hq : q = { r.enter (s.asked gap p) with backfill := some gap })
    (hset : gap.last.IsSet) (hhole : s.store.Hole gap)
    (hys : ∀ p, (∃ y ∈ ys, y.2.position = p) ↔ p ∈ gap) :
    ∃ t, Settled (q.replay (answering r.device ys)).2 s t ∧
      t.store.holes.length + 1 = s.store.holes.length := by
  have hasked : Tended q (s.asked gap p) := by
    rw [hq]
    exact ⟨rfl, h.complete, h.on, h.floor, h.held, h.set⟩
  have hshort := (Session.awaiting_asked_of_missing hset hhole.first_mem
    (hhole.not_held _ hhole.first_mem) p).short
  have hout := Filling.out (r := q) (by rw [hq]) (Session.accounts_asked hset p) hshort
  have hdevice : r.device = q.device := by
    rw [hq]
    rfl
  obtain ⟨t, ht, hless⟩ := hasked.filled hout hset hhole hys
  have hrequest : s.Grows (s.asked gap p) := .of_store (.of_eq rfl rfl rfl) fun _ => .inl
  rw [hdevice]
  exact ⟨t, { ht with grows := hrequest.trans ht.grows }, hless⟩

end Reconciler

/-! ## Rounds -/

/-- A record of the cursor channel, and the answers to what is asked for over it. -/
structure Round where
  now : Instant
  record : Record
  info : SessionInfo
  /-- The answers, with the times at which they come. -/
  answers : List (Instant × Record)

namespace Reconciler

variable {r : Reconciler} {s : Session} {round : Round} {rounds : List Round}

/-- What comes of a round. -/
def play (r : Reconciler) (round : Round) : Reconciler :=
  (r.replay (.event round.now ⟨r.device, .cursor round.record round.info⟩ ::
    answering r.device round.answers)).2

/-- The round is one of the current session. Its record is held already or follows the highest
one, and the answers are those to the request that is made over it, in any order and as often as
the device likes. -/
structure Admits (r : Reconciler) (round : Round) : Prop where
  current : r.journal.isIn round.info.id
  set : round.record.position.IsSet
  known : r.holds round.record.position ∨ ∃ p, r.holds p ∧ (∀ q, r.holds q → q ≤ p) ∧
    round.record.position.toNat = p.toNat + 1
  answered : ∃ a, r.handle round.now ⟨r.device, .cursor round.record round.info⟩ = .ok a ∧
    ∀ p, (∃ y ∈ round.answers, y.2.position = p) ↔ ∃ gap ∈ requestsOf a.sent, p ∈ gap

/-- A record that is held already or follows the highest one leaves the holes as they are. -/
theorem hole_receiveCursor (hs : r.journal.current = some s) (hround : r.Admits round)
    (gap : Span) :
    (s.receiveCursor round.record).store.Hole gap ↔ s.store.Hole gap := by
  rw [Session.store_receiveCursor]
  split
  · rcases hround.known with hheld | ⟨p, hp, hhighest, hnext⟩
    · rw [holds_of_current hs] at hheld
      refine Store.hole_congr (fun p => ?_) gap
      rw [Store.mem_insert, or_iff_right_of_imp]
      rintro rfl
      exact hheld
    · rw [holds_of_current hs] at hp
      exact Store.hole_insert_of_next hp (fun q hq => hhighest q ((holds_of_current hs).mpr hq))
        hnext gap
  · exact Iff.rfl

/-- It leaves them above what was held. -/
theorem grows_receiveCursor (hs : r.journal.current = some s) (hround : r.Admits round) :
    s.Grows (s.receiveCursor round.record) := by
  refine .of_store (s.continues_receiveCursor _) fun q hq => ?_
  rw [Session.store_receiveCursor] at hq
  split at hq
  · rcases Store.mem_insert.mp hq with rfl | hq
    · rcases hround.known with hheld | ⟨p, hp, -, hnext⟩
      · exact .inl ((holds_of_current hs).mp hheld)
      · exact .inr ⟨p, (holds_of_current hs).mp hp, Position.le_iff.mpr (by omega)⟩
    · exact .inl hq
  · exact .inl hq

/-- **A round takes away a hole**, if there is one. -/
theorem Tended.play (h : Tended r s) (hfree : r.backfill = none) (hround : r.Admits round) :
    ∃ t, Settled (r.play round) s t ∧ t.store.holes.length = s.store.holes.length - 1 := by
  obtain ⟨s', hs', hid⟩ := isIn_iff.mp hround.current
  obtain rfl := Option.some_inj.mp (hs'.symm.trans h.current)
  obtain ⟨a, ha, hsent, hnext⟩ :=
    exists_mended hs' hid h.complete hfree round.now round.record
  have htended := h.receiveCursor round.record
  have hgrows := grows_receiveCursor hs' hround
  have hholes := Store.length_holes_congr (hole_receiveCursor hs' hround)
  obtain ⟨a', ha', hanswers⟩ := hround.answered
  obtain rfl : a' = a := Except.ok.inj (ha'.symm.trans ha)
  have hplay : r.play round = (a'.next.replay (answering r.device round.answers)).2 :=
    replay_cons_of_ok (u := .event round.now ⟨r.device, .cursor round.record round.info⟩) ha _
  rw [hplay, ← hholes]
  rcases htended.repairable? with ⟨gap, hgap, hhole, hset⟩ | ⟨hgap, hnone⟩ <;>
    rw [hgap] at hsent hnext
  -- the first hole is asked for, and the answers fill it
  · obtain ⟨t, ht, hless⟩ := htended.fetched hnext hset hhole fun p => by
      rw [hanswers, hsent]
      simp
    exact ⟨t, { ht with grows := hgrows.trans ht.grows }, Nat.eq_sub_of_add_eq hless⟩
  -- without a hole nothing is asked for, and there are no answers
  · have hempty : round.answers = [] := by
      refine List.eq_nil_iff_forall_not_mem.mpr fun y hy => ?_
      obtain ⟨gap, hgap, -⟩ := (hanswers _).mp ⟨y, hy, rfl⟩
      rw [hsent] at hgap
      exact absurd hgap List.not_mem_nil
    have hsame : (a'.next.replay (answering r.device round.answers)).2 = a'.next := by
      rw [hempty]
      rfl
    rw [hsame, hnext]
    exact ⟨_, ⟨⟨rfl, rfl, h.on, h.floor, htended.held, htended.set⟩, hgrows, hfree, fun _ => rfl⟩,
      by rw [hnone]; rfl⟩

/-! ## Rounds one after another -/

/-- What comes of rounds one after another. -/
def playAll (r : Reconciler) (rounds : List Round) : Reconciler := rounds.foldl play r

/-- Every one of the rounds is admitted when it begins. -/
def AdmitsAll (r : Reconciler) : List Round → Prop
  | [] => True
  | round :: rest => r.Admits round ∧ (r.play round).AdmitsAll rest

/-- Rounds take away a hole each, as long as there is one. -/
theorem Tended.playAll (h : Tended r s) (hfree : r.backfill = none) (hrounds : r.AdmitsAll rounds)
    (hne : rounds ≠ []) :
    ∃ t, Settled (r.playAll rounds) s t ∧
      t.store.holes.length = s.store.holes.length - rounds.length := by
  induction rounds generalizing r s with
  | nil => exact absurd rfl hne
  | cons round rest ih =>
    obtain ⟨hround, hrest⟩ := hrounds
    obtain ⟨t, ht, hless⟩ := h.play hfree hround
    cases rest with
    | nil => exact ⟨t, ht, hless⟩
    | cons next rest =>
      obtain ⟨t', ht', hless'⟩ := ih ht.tended ht.free hrest (List.cons_ne_nil next rest)
      refine ⟨t', { ht' with grows := ht.grows.trans ht'.grows }, ?_⟩
      rw [hless', hless, List.length_cons (a := round)]
      omega

/-- The session `s`, which held the span `held`, has become the session `t`, which holds everything
from there up to `last`. -/
structure Healed (r : Reconciler) (s t : Session) (held : Span) (last : Position) : Prop where
  current : r.journal.current = some t
  /-- It is the same session, and it lost nothing. -/
  info : t.info = s.info
  kept : ∀ p ∈ s.store, p ∈ t.store
  /-- Nothing is missing of what lies between the positions that it held. -/
  mended : t.store.Covers held
  /-- Nor is anything of what lies between those that it holds. -/
  bounded : t.store.Bounded ⟨held.first, last⟩
  covers : t.store.Covers ⟨held.first, last⟩
  /-- No hole is out, and the state tells a log without holes. -/
  free : r.backfill = none
  state : ∃ total, r.state = .complete (some held.first) (some last) total ∧
    total.toNat = last.toNat - held.first.toNat + 1

/-- When no hole is left, the session is healed. -/
theorem Settled.healed {held : Span} (h : Settled r s t) (hheld : s.store.Bounded held)
    (hnone : t.store.holes = []) : ∃ last, Healed r s t held last := by
  obtain ⟨q, hq⟩ := h.tended.held
  obtain ⟨⟨first, last⟩, hspan, -⟩ := Store.exists_bounded hq
  obtain rfl : first = held.first := h.grows.first_eq hheld hspan
  have hset := h.tended.set _ hspan.last
  have hcovers := (hspan.holes_eq_nil_iff hset).mp hnone
  have hkept := h.grows.continues.held
  have hwithin : held.last ≤ last := (hspan.within _ (hkept _ hheld.last)).2
  refine ⟨last, h.tended.current, h.grows.continues.info, hkept, ?_, hspan, hcovers, h.free, _,
    (h.published hnone).trans (Session.ofStatus_status hspan), ?_⟩
  · exact fun p hp => hcovers p ⟨hp.1, Nat.le_trans hp.2 hwithin⟩
  · have hcard := hspan.card_missing
    rw [Store.covers_iff.mp hcovers, Finset.card_empty, Nat.zero_add] at hcard
    have hordered : held.first.toNat ≤ last.toNat := hspan.ordered
    have hlast : last.toNat ≤ 4294967294 := Position.isSet_iff.mp hset
    have hsize : t.store.size = last.toNat + 1 - held.first.toNat := hcard
    rw [UInt64.toNat_ofNat', hsize]
    omega

/-- **After as many rounds as there are holes, and at least one, nothing is missing** of the span
that the session held, nor of what it holds by then; no hole is out, nothing that was held is lost,
and the state tells a log without holes. -/
theorem covers_after_rounds {device : DeviceId} {policy : Policy} {past : List Moment}
    (hon : policy.backfillOnGap) (h : Run (begin device policy) past r)
    (hst : r.state.isComplete) (hfree : r.backfill = none) (hfloor : r.floor = .zero)
    (hs : r.journal.current = some s) {held : Span} (hheld : s.store.Bounded held)
    (hrounds : r.AdmitsAll rounds) (hmany : max 1 s.store.holes.length ≤ rounds.length) :
    ∃ t last, Healed (r.playAll rounds) s t held last := by
  have htended : Tended r s := by
    refine ⟨hs, hst, ?_, hfloor, ⟨held.first, hheld.first⟩, ?_⟩
    · rw [h.backfillOnGap]
      exact hon
    · intro q hq
      exact h.isSet_of_holds rfl ((holds_of_current hs).mpr hq)
  have hne : rounds ≠ [] := by
    rintro rfl
    rw [List.length_nil] at hmany
    omega
  obtain ⟨t, ht, hless⟩ := htended.playAll hfree hrounds hne
  exact ⟨t, ht.healed hheld (List.eq_nil_of_length_eq_zero (by omega))⟩

/-- The holes at 1 and at 3 are left alone. -/
def twoHoles : List Inbound :=
  [Device.standard.start (pos 0) (pos 0), Device.standard.bulk (pos 0),
    Device.standard.cursor (pos 2), Device.standard.cancel, Device.standard.cursor (pos 4),
    Device.standard.cancel]

/-- The device goes on with a new record and answers twice for the first hole; then it repeats an
old record and answers for the other hole. -/
def twoRounds : List Round :=
  [⟨now, Device.record (pos 5), Device.standard.info,
      [(now, Device.record (pos 1)), (now, Device.record (pos 1))]⟩,
    ⟨now, Device.record (pos 2), Device.standard.info, [(now, Device.record (pos 3))]⟩]

/-- A round is admitted if its answers are for the one position that is asked for over it. -/
theorem admits_of_single {p : Position} (hcurrent : r.journal.isIn round.info.id)
    (hset : round.record.position.IsSet)
    (hknown : r.holds round.record.position ∨ ∃ p, r.holds p ∧ (∀ q, r.holds q → q ≤ p) ∧
      round.record.position.toNat = p.toNat + 1)
    (hasked : (r.handle round.now ⟨r.device, .cursor round.record round.info⟩).toOption.all
      fun a => requestsOf a.sent = [⟨p, p⟩])
    (hanswers : round.answers ≠ [] ∧ ∀ y ∈ round.answers, y.2.position = p) : r.Admits round := by
  obtain ⟨a, ha, -⟩ := exists_react r round.now (.cursor round.record round.info)
  have hsent : requestsOf a.sent = [⟨p, p⟩] := of_decide_eq_true
    (of_handle (P := fun a => requestsOf a.sent = [⟨p, p⟩]) ha hasked)
  refine ⟨hcurrent, hset, hknown, a, ha, fun q => ?_⟩
  rw [hsent]
  constructor
  · rintro ⟨y, hy, rfl⟩
    refine ⟨_, List.mem_singleton_self _, ?_⟩
    rw [hanswers.2 y hy]
    exact ⟨Nat.le_refl _, Nat.le_refl _⟩
  · rintro ⟨gap, hgap, hq⟩
    rw [List.mem_singleton.mp hgap] at hq
    obtain ⟨y, hy⟩ := List.exists_mem_of_ne_nil _ hanswers.1
    exact ⟨y, hy, (hanswers.2 y hy).trans (Position.le_antisymm hq.1 hq.2)⟩

/-- The two rounds fill the holes. -/
theorem covers_after_two_rounds :
    ∃ past r s t last, Run (begin Device.standard.id .standard) past r ∧ r.state.isComplete ∧
      r.backfill = none ∧ r.floor = .zero ∧ r.journal.current = some s ∧
      s.store.Bounded (span 0 4) ∧ r.AdmitsAll twoRounds ∧
      max 1 s.store.holes.length ≤ twoRounds.length ∧
      Healed (r.playAll twoRounds) s t (span 0 4) last := by
  have hrun := run_rehearse .standard twoHoles
  obtain ⟨s, hs⟩ := Option.isSome_iff_exists.mp
    (show (rehearse .standard twoHoles).2.journal.current.isSome by decide)
  have hchecked : (rehearse .standard twoHoles).2.journal.current.all fun s =>
      s.status.span? = some (span 0 4) ∧ max 1 s.store.holes.length ≤ twoRounds.length := by decide
  rw [hs] at hchecked
  obtain ⟨hspan, hmany⟩ := of_decide_eq_true hchecked
  have hbounded : s.store.Bounded (span 0 4) := (Session.bounded_of_span? hspan).1
  have hrounds : (rehearse .standard twoHoles).2.AdmitsAll twoRounds := by
    have hnext : ∃ p, (rehearse .standard twoHoles).2.holds p ∧
        (∀ q, (rehearse .standard twoHoles).2.holds q → q ≤ p) ∧
        (Device.record (pos 5)).position.toNat = p.toNat + 1 :=
      ⟨pos 4, by decide, fun q hq => (hbounded.within q ((holds_of_current hs).mp hq)).2, rfl⟩
    exact ⟨admits_of_single (p := pos 1) (by decide) (by decide) (.inr hnext) (by decide)
        (by decide),
      admits_of_single (p := pos 3) (by decide) (by decide) (.inl (by decide)) (by decide)
        (by decide), trivial⟩
  obtain ⟨t, last, hhealed⟩ :=
    covers_after_rounds rfl hrun (by decide) (by decide) rfl hs hbounded hrounds hmany
  exact ⟨_, _, s, t, last, hrun, by decide, by decide, rfl, hs, hbounded, hrounds, hmany, hhealed⟩

end Reconciler

end Logbook
