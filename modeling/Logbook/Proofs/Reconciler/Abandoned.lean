import Logbook.Proofs.Reconciler.Patience
import Logbook.Proofs.Reconciler.Repair

/-!
# Holes that were given up

A hole is given up when the bulk channel is silent for too long, and the floor then rises past it.
As long as the device stays in its session and the journal is not dropped, the floor never falls,
and no record that is pushed makes the reconciler ask for anything below it. So the holes that are
given up lie one above the other.

- `Moment.isLoyal`: the journal is kept, and the device is in the current session.
- `Moment.abandons?`, `abandoned`: the holes that are given up.
- `Reconciler.Beyond`: nothing is asked for up to a position any more.
- `Reconciler.Beyond.step`: that stays so.
- `Reconciler.Step.gives_up`: it comes of giving up a hole.
- `Reconciler.Abandoned`: all of the holes of a list were given up, one after the other.
- `Reconciler.given_up_for_good`: a hole that is given up is never asked for again.
-/

namespace Logbook

open Rehearsal Script

/-! ## Moments -/

/-- The journal is not dropped, and if the session of the device is told, it is the current one. -/
def Moment.isLoyal (m : Moment) : Bool :=
  match m.stimulus with
  | .event _ ⟨_, .cursor _ info⟩ => m.before.journal.isIn info.id
  | .event _ ⟨_, .start _ _ info⟩ => m.before.journal.isIn info.id
  | .event .. => true
  | .reset => false

/-- The hole that is out when a pushed record shows that the bulk channel was silent for too
long. -/
def Moment.abandons? (m : Moment) : Option Span :=
  match m.stimulus, m.before.journal.current with
  | .event _ ⟨_, .cursor x info⟩, some s =>
    if s.id = info.id ∧ (s.receiveCursor x).isStalled then m.before.backfill else none
  | _, _ => none

/-- The holes that were given up, the latest first. -/
def abandoned (past : List Moment) : List Span := past.filterMap Moment.abandons?

theorem abandoned_cons (m : Moment) (past : List Moment) :
    abandoned (m :: past) = m.abandons?.toList ++ abandoned past := by
  rw [abandoned, List.filterMap_cons]
  cases m.abandons? <;> rfl

namespace Reconciler

variable {r t q : Reconciler} {s : Session} {u : Stimulus} {a : Reaction} {sent : List Outbound}
  {past ms : List Moment} {gap : Span} {gaps : List Span} {p : Position} {x : Record}
  {info : SessionInfo} {device : DeviceId} {policy : Policy}

theorem exists_of_abandons? (h : Moment.abandons? ⟨r, u, a⟩ = some gap) :
    ∃ now device x info s, u = .event now ⟨device, .cursor x info⟩ ∧
      r.journal.current = some s ∧ s.id = info.id ∧ (s.receiveCursor x).isStalled ∧
      r.backfill = some gap := by
  unfold Moment.abandons? at h
  split at h
  · next now d x info s hu hs =>
    split at h
    · next hstalled => exact ⟨now, d, x, info, s, hu, hs, hstalled.1, hstalled.2, h⟩
    · cases h
  · cases h

/-- What is asked for over a pushed record is a hole, which is out afterwards. -/
theorem Step.backfill_of_broadcast (h : Step r u q sent) (hu : u.isBroadcast)
    (hgap : gap ∈ requestsOf sent) : q.backfill = some gap := by
  cases h with
  | ignored | noticed | left | ticked => cases hgap
  | stalled | settled =>
    rw [requestsOf_announce] at hgap
    cases hgap
  | repaired =>
    obtain rfl := List.mem_singleton.mp hgap
    rfl
  | disconnected | delivered | fetched | filling | filled | added | late => cases hu
  | unneeded | covered | asked | cancelled | dropped | reset => cases hu

/-! ## Where a hole can be -/

/-- The hole that is out is in order, and the stream goes on above it. -/
def Confined (r : Reconciler) : Prop :=
  ∀ gap, r.backfill = some gap → gap.Ordered ∧ gap.last < .last

theorem confined_of_free (h : r.backfill = none) : Confined r := by
  intro gap hgap
  rw [h] at hgap
  cases hgap

/-- Every rule keeps the hole that is out where it can be. -/
theorem Confined.step (h : Confined r) (hstep : Step r u q sent) : Confined q := by
  cases hstep with
  | ignored | noticed | ticked | stalled | delivered | fetched | filling | added => exact h
  | late | cancelled => exact h
  | disconnected | left | filled | unneeded | covered | asked => exact confined_of_free rfl
  | dropped | reset => exact confined_of_free rfl
  | settled _ _ _ hclear => exact confined_of_free hclear.current.2.2.2.1
  | repaired _ _ _ hclear hrepair =>
    intro gap hgap
    cases hgap
    obtain ⟨hcurrent, -, -, -, -, hstore, -⟩ := hclear.current
    obtain ⟨span, -, hset, hfirst, -, hupper⟩ := between_of_repairable? hcurrent hstore hrepair
    exact ⟨hfirst.ordered, Nat.lt_of_lt_of_le hupper (Position.isSet_iff.mp hset)⟩

/-! ## Up to where nothing is asked for -/

/-- Holes are given up at least up to this position, and the one that is out lies above it. -/
structure Beyond (r : Reconciler) (p : Position) : Prop where
  floor : p < r.floor
  backfill : ∀ gap, r.backfill = some gap → p < gap.first

namespace Beyond

/-- Without a hole out only the floor counts. -/
theorem of_free (hfree : r.backfill = none) (hfloor : p < r.floor) : Beyond r p where
  floor := hfloor
  backfill gap hgap := by rw [hfree] at hgap; cases hgap

/-- A hole that is to be filled lies above the floor. -/
theorem lt_first (h : Beyond r p) {status : Status} (hgap : r.repairable? status = some gap) :
    p < gap.first := by
  obtain ⟨-, s, span, -, -, hfirst, -⟩ := repairable?_eq_some hgap
  have hle := Position.le_iff.mp hfirst.first_le
  have hfloor := Position.lt_iff.mp h.floor
  rw [Position.toNat_max] at hle
  rw [Position.lt_iff]
  omega

theorem repaired (h : Beyond r p) {status : Status} (hgap : r.repairable? status = some gap)
    (s : Session) : Beyond { r.enter s with backfill := some gap } p where
  floor := h.floor
  backfill gap' hgap' := by
    cases hgap'
    exact h.lt_first hgap

/-- The floor is not lower once no hole is out. -/
theorem cleared {s t : Session} (h : Beyond r p) (hclear : Cleared r s t q) : Beyond q p := by
  cases hclear with
  | free => exact ⟨h.floor, h.backfill⟩
  | @givenUp gap =>
    refine of_free rfl ?_
    have hfloor := Position.lt_iff.mp h.floor
    show p.toNat < (max r.floor gap.last.next).toNat
    rw [Position.toNat_max]
    omega

/-- **Every rule keeps the reconciler beyond a position**, unless the session is left or the
journal dropped. -/
theorem step (h : Beyond r p) (hloyal : Moment.isLoyal ⟨r, u, a⟩) (hstep : Step r u a.next a.sent) :
    Beyond a.next p := by
  obtain ⟨q, sent, notes⟩ := a
  cases hstep with
  | ignored => exact h
  | noticed | ticked | stalled | delivered | fetched | filling | added | late | cancelled =>
    exact ⟨h.floor, h.backfill⟩
  | disconnected | filled | unneeded | covered | asked | dropped => exact of_free rfl h.floor
  | left _ hout =>
    rw [show r.journal.isIn _ = true from hloyal] at hout
    cases hout
  | reset => cases hloyal
  | settled _ _ _ hclear => exact ⟨(h.cleared hclear).floor, (h.cleared hclear).backfill⟩
  | repaired _ _ _ hclear hrepair => exact (h.cleared hclear).repaired hrepair _

end Beyond

/-- Giving up a hole leaves the reconciler beyond it. -/
theorem Cleared.beyond {s t : Session} (h : Cleared r s t q) (hgap : r.backfill = some gap)
    (hlast : gap.last < .last) : Beyond q gap.last := by
  cases h with
  | free hfree =>
    rw [hfree] at hgap
    cases hgap
  | givenUp hgap' =>
    obtain rfl := Option.some_inj.mp (hgap.symm.trans hgap')
    refine .of_free rfl ?_
    have hlast : gap.last.toNat < 4294967294 := hlast
    show gap.last.toNat < (max r.floor gap.last.next).toNat
    rw [Position.toNat_max, Position.toNat_next]
    omega

/-- **A pushed record that shows that the bulk channel was silent for too long makes the reconciler
give up the hole that is out.** -/
theorem Step.gives_up {now : Instant} (hout : Outstanding r) (hconfined : Confined r)
    (hgap : r.backfill = some gap) (hs : r.journal.current = some s) (hid : s.id = info.id)
    (hstalled : (s.receiveCursor x).isStalled)
    (h : Step r (.event now ⟨device, .cursor x info⟩) q sent) : Beyond q gap.last := by
  obtain ⟨hst, -⟩ := hout.gap gap hgap
  obtain ⟨-, hlast⟩ := hconfined gap hgap
  rcases h.mends hs hid hst with ⟨-, hlive⟩ | ⟨t, p, hclear, -, hnext⟩
  · exact absurd hstalled hlive
  · have hbeyond := hclear.beyond hgap hlast
    rw [hnext]
    cases hrepair : p.repairable? (s.receiveCursor x).status with
    | none => exact ⟨hbeyond.floor, hbeyond.backfill⟩
    | some gap' => exact hbeyond.repaired hrepair _

/-! ## One hole after the other -/

/-- The holes of the list were given up, the latest first. They lie one above the other, and below
whatever is asked for next. -/
structure Abandoned (r : Reconciler) (gaps : List Span) : Prop where
  outstanding : Outstanding r
  confined : Confined r
  beyond : ∀ gap ∈ gaps, Beyond r gap.last
  ascending : gaps.Pairwise fun later earlier => earlier.last < later.first

namespace Abandoned

theorem step (h : Abandoned r gaps) (hloyal : Moment.isLoyal ⟨r, u, a⟩)
    (hstep : Step r u a.next a.sent) :
    Abandoned a.next ((Moment.abandons? ⟨r, u, a⟩).toList ++ gaps) := by
  have hout := h.outstanding.step hstep
  have hconfined := h.confined.step hstep
  have hbeyond : ∀ gap ∈ gaps, Beyond a.next gap.last := fun gap hgap =>
    (h.beyond gap hgap).step hloyal hstep
  cases habandons : Moment.abandons? ⟨r, u, a⟩ with
  | none => exact ⟨hout, hconfined, hbeyond, h.ascending⟩
  | some gap =>
    obtain ⟨now, d, x, info, s, rfl, hs, hid, hstalled, hgap⟩ := exists_of_abandons? habandons
    refine ⟨hout, hconfined, ?_, ?_⟩
    · intro old hold
      rcases List.mem_cons.mp hold with rfl | hold
      · exact hstep.gives_up h.outstanding h.confined hgap hs hid hstalled
      · exact hbeyond old hold
    -- the hole was out above all that were given up before
    · exact List.pairwise_cons.mpr
        ⟨fun old hold => (h.beyond old hold).backfill gap hgap, h.ascending⟩

theorem run (h : Abandoned r gaps) (hms : Run r ms t) (hloyal : ∀ m ∈ ms, m.isLoyal) :
    Abandoned t (abandoned ms ++ gaps) := by
  revert hloyal
  refine hms.invariant (I := fun ms t => (∀ m ∈ ms, m.isLoyal) →
    Abandoned t (abandoned ms ++ gaps)) ?_ ?_
  · intro
    exact h
  · intro ms t u a ih hstep hloyal
    rw [abandoned_cons, List.append_assoc]
    exact (ih fun m hm => hloyal m (List.mem_cons_of_mem _ hm)).step
      (hloyal _ List.mem_cons_self) hstep

end Abandoned

theorem Run.confined (h : Run (begin device policy) past r) : Confined r :=
  h.invariant (I := fun _ r => Confined r) (confined_of_free rfl) Confined.step

/-- What is asked for over a pushed record lies above all that the reconciler was beyond. -/
theorem Run.lt_first_of_broadcast (h : Run r ms t) (hr : Beyond r p)
    (hloyal : ∀ m ∈ ms, m.isLoyal) : ∀ m ∈ ms, m.stimulus.isBroadcast →
      ∀ gap ∈ requestsOf m.after.sent, p < gap.first := by
  suffices hall : Beyond t p ∧ ∀ m ∈ ms, m.stimulus.isBroadcast →
      ∀ gap ∈ requestsOf m.after.sent, p < gap.first from hall.2
  revert hloyal
  refine h.invariant (I := fun ms t => (∀ m ∈ ms, m.isLoyal) → Beyond t p ∧
    ∀ m ∈ ms, m.stimulus.isBroadcast → ∀ gap ∈ requestsOf m.after.sent, p < gap.first) ?_ ?_
  · intro
    refine ⟨hr, ?_⟩
    intro m hm
    cases hm
  · intro ms t u a ih hstep hloyal
    obtain ⟨ht, hasked⟩ := ih fun m hm => hloyal m (List.mem_cons_of_mem _ hm)
    have hbeyond := ht.step (hloyal _ List.mem_cons_self) hstep
    refine ⟨hbeyond, ?_⟩
    intro m hm hu gap hgap
    rcases List.mem_cons.mp hm with rfl | hm
    · exact hbeyond.backfill gap (hstep.backfill_of_broadcast hu hgap)
    · exact hasked m hm hu gap hgap

/-- **A hole that is given up is never asked for again** while the device stays in its session and
the journal is kept. A pushed record that shows that the bulk channel was silent for too long makes
the reconciler give up the hole that is out; whatever is asked for over this record and every later
one lies above the hole, and the holes that are given up after it lie above it and one above the
other. -/
theorem given_up_for_good (h : Run (begin device policy) past r) (hgap : r.backfill = some gap)
    (hs : r.journal.current = some s) (hid : s.id = info.id)
    (hstalled : (s.receiveCursor x).isStalled) (now : Instant) :
    ∃ a, r.handle now ⟨r.device, .cursor x info⟩ = .ok a ∧ a.next.backfill ≠ some gap ∧
      gap.last < a.next.floor ∧ (∀ gap' ∈ requestsOf a.sent, gap.last < gap'.first) ∧
      ∀ ms t, Run a.next ms t → (∀ m ∈ ms, m.isLoyal) →
        (∀ m ∈ ms, m.stimulus.isBroadcast →
          ∀ gap' ∈ requestsOf m.after.sent, gap.last < gap'.first) ∧
        (abandoned ms ++ [gap]).Pairwise fun later earlier => earlier.last < later.first := by
  obtain ⟨a, ha, hstep⟩ := exists_react r now (.cursor x info)
  have hout := outstanding_after_run h
  have hconfined := h.confined
  have hbeyond := hstep.gives_up hout hconfined hgap hs hid hstalled
  refine ⟨a, ha, ?_, hbeyond.floor, ?_, ?_⟩
  · intro hstill
    obtain ⟨hordered, -⟩ := hconfined gap hgap
    exact Nat.not_lt.mpr hordered (hbeyond.backfill gap hstill)
  · intro gap' hgap'
    exact hbeyond.backfill gap' (hstep.backfill_of_broadcast rfl hgap')
  · intro ms t hms hloyal
    have hfirst : Abandoned a.next [gap] := by
      refine ⟨hout.step hstep, hconfined.step hstep, ?_, List.pairwise_singleton _ _⟩
      intro old hold
      obtain rfl := List.mem_singleton.mp hold
      exact hbeyond
    exact ⟨hms.lt_first_of_broadcast hbeyond hloyal, (hfirst.run hms hloyal).ascending⟩

/-- The hole at 1 is asked for after a transfer of one position. -/
def holeAtOne : List Inbound :=
  [Device.standard.start (pos 0) (pos 0), Device.standard.bulk (pos 0),
    Device.standard.cursor (pos 2)]

/-- The record at 5 shows that nothing came for it. -/
def fifth : Stimulus := .event now (Device.standard.cursor (pos 5))

/-- Then nothing comes for the hole from 3 to 4, either. The link breaks, the transfer that is
started after it stalls, and nothing comes for the hole at 7. -/
def moreHoles : List Stimulus :=
  ([Device.standard.cursor (pos 6), Device.standard.link false, Device.standard.cursor (pos 7),
    Device.standard.start (pos 0) (pos 7), Device.standard.cursor (pos 8),
    Device.standard.cursor (pos 10), Device.standard.cursor (pos 11)] : List Inbound).map
      (.event now)

/-- Three holes are given up one after the other, and none of them is asked for over a later
record. -/
theorem given_up_for_good_after_one_record :
    ∃ past r a ms t, Run (begin Device.standard.id impatient) past r ∧
      r.backfill = some (span 1 1) ∧ r.handle now (Device.standard.cursor (pos 5)) = .ok a ∧
      a.next.backfill ≠ some (span 1 1) ∧ pos 1 < a.next.floor ∧
      requestsOf a.sent = [span 3 4] ∧ Run a.next ms t ∧ (∀ m ∈ ms, m.isLoyal) ∧
      (∀ m ∈ ms, m.stimulus.isBroadcast → ∀ gap ∈ requestsOf m.after.sent, pos 1 < gap.first) ∧
      abandoned ms = [span 7 7, span 3 4] ∧
      (abandoned ms ++ [span 1 1]).Pairwise fun later earlier => earlier.last < later.first := by
  have hrun := run_rehearse impatient holeAtOne
  obtain ⟨s, hs, hid, hstalled⟩ : ∃ s, (rehearse impatient holeAtOne).2.journal.current = some s ∧
      s.id = Device.standard.info.id ∧ (s.receiveCursor (Device.record (pos 5))).isStalled :=
    ⟨_, rfl, by decide, by decide⟩
  have hgap : (rehearse impatient holeAtOne).2.backfill = some (span 1 1) := by decide
  obtain ⟨a, ha, hfree, hfloor, -, hlater⟩ := given_up_for_good hrun hgap hs hid hstalled now
  have hnext : (rehearse impatient holeAtOne).2.after fifth = a.next :=
    after_of_ok (u := fifth) ha
  have hms := run_replay ((rehearse impatient holeAtOne).2.after fifth) moreHoles
  have hrequest : requestsOf a.sent = [span 3 4] := of_decide_eq_true
    (of_handle (P := fun b => requestsOf b.sent = [span 3 4]) ha (by decide))
  have hloyal : ∀ m ∈ (((rehearse impatient holeAtOne).2.after fifth).replay moreHoles).1,
      m.isLoyal := by decide
  rw [hnext] at hms
  obtain ⟨hasked, hascending⟩ := hlater _ _ hms (hnext ▸ hloyal)
  exact ⟨_, _, a, _, _, hrun, hgap, ha, hfree, hfloor, hrequest, hms, hnext ▸ hloyal, hasked,
    hnext ▸ by decide, hascending⟩

end Reconciler

end Logbook
