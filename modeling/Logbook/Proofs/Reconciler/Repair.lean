import Logbook.Proofs.Reconciler.Run
import Logbook.Proofs.Store.Bounds

/-!
# Repairs of a complete log

While the log is complete and no hole is out, every record that comes is stored, and then the next
hole above the floor decides what happens. Which hole that is depends on nothing but the held
positions.

- `Reconciler.repairable?_of_bounded`: the hole to be filled next, told from the bounds of what is
  held.
- `Reconciler.repairable?_of_floor_zero`: the same as long as no hole was given up.
- `Reconciler.between_of_repairable?`: a hole to be filled lies between held positions.
- `Reconciler.Step.mends`: a record of the cursor channel, after which a hole is asked for or the
  state brought up to date; `Reconciler.exists_mended`: the same without a hole that is out.
- `Reconciler.exists_added`, `Reconciler.exists_filled`: a record of the bulk channel, without a
  hole that is out and with one.
-/

namespace Logbook.Reconciler

open Rehearsal

variable {r : Reconciler} {s t : Session} {span : Span} {device : DeviceId}

/-! ## The next hole -/

/-- The hole to be filled next is the first run of missing positions between the bounds and above
the floor, if holes are filled at all. -/
theorem repairable?_of_bounded (ht : r.journal.current = some t) (hstore : t.store = s.store)
    (h : s.store.Bounded span) (hset : span.last.IsSet) :
    r.repairable? s.status =
      if r.backfillOnGap then s.store.gap? (max span.first r.floor) span.last else none := by
  have hgap : r.nextGap? s.status = s.store.gap? (max span.first r.floor) span.last := by
    unfold nextGap? Journal.gap?
    by_cases hdropped : s.status.hasDropped
    · rw [if_pos hdropped, Session.span?_status h hset, ht, ← hstore]
      rfl
    -- without a loss there is no hole, wherever the floor is
    · rw [if_neg hdropped]
      rw [Session.hasDropped_status h hset, not_not] at hdropped
      symm
      rw [Store.gap?_eq_none_iff]
      right
      intro p hfirst hlast
      rw [Position.le_iff, Position.toNat_max] at hfirst
      exact hdropped p ⟨Nat.le_trans (Nat.le_max_left ..) hfirst, hlast⟩
  rw [repairable?, hgap]

/-- As long as no hole was given up, the hole to be filled next is the first of all. -/
theorem repairable?_of_floor_zero (hon : r.backfillOnGap) (hfloor : r.floor = .zero)
    (ht : r.journal.current = some t) (hstore : t.store = s.store) (h : s.store.Bounded span)
    (hset : span.last.IsSet) :
    r.repairable? s.status = s.store.gap? span.first span.last := by
  have hmax : max span.first .zero = span.first := by
    apply Position.ext
    rw [Position.toNat_max]
    exact Nat.max_eq_left (Nat.zero_le _)
  rw [repairable?_of_bounded ht hstore h hset, if_pos hon, hfloor, hmax]

/-- A hole that is to be filled lies between held positions. -/
theorem between_of_repairable? {gap : Span} (ht : r.journal.current = some t)
    (hstore : t.store = s.store) (h : r.repairable? s.status = some gap) :
    ∃ span, s.store.Bounded span ∧ span.last.IsSet ∧
      s.store.FirstGap (max span.first r.floor) span.last gap ∧ span.first < gap.first ∧
      gap.last < span.last := by
  obtain ⟨-, t', span, ht', hspan, hfirst, -⟩ := repairable?_eq_some h
  obtain rfl : t' = t := Option.some_inj.mp (ht'.symm.trans ht)
  obtain ⟨hbounded, hset⟩ := Session.bounded_of_span? hspan
  rw [hstore] at hfirst
  -- the bounds are held, so they are not the ends of the hole
  have hends {p q : Position} (hp : p ∈ s.store) (hq : q ∈ gap) : p.toNat ≠ q.toNat := by
    intro he
    exact hfirst.not_held q hq (Position.ext he ▸ hp)
  have hlower := hends hbounded.first ⟨Nat.le_refl _, hfirst.ordered⟩
  have hupper := hends hbounded.last ⟨hfirst.ordered, Nat.le_refl _⟩
  have hle := Position.le_iff.mp hfirst.first_le
  have hge := Position.le_iff.mp hfirst.le_last
  rw [Position.toNat_max] at hle
  refine ⟨span, hbounded, hset, hfirst, ?_, ?_⟩
  · rw [Position.lt_iff]
    omega
  · rw [Position.lt_iff]
    omega

/-! ## Records that come while the log is complete -/

/-- Without a hole that is out there is nothing to give up. -/
theorem Cleared.of_free {q : Reconciler} (h : Cleared r s t q) (hfree : r.backfill = none) :
    t = s ∧ q = r.enter s := by
  cases h with
  | free => exact ⟨rfl, rfl⟩
  | givenUp hgap =>
    rw [hfree] at hgap
    cases hgap

/-- While the log is complete, a pushed record is only taken as long as a hole is out. If none is
out, or the one that is was given up, the next hole is asked for; without one the state is brought
up to date. -/
theorem Step.mends {now : Instant} {x : Record} {info : SessionInfo} {q : Reconciler}
    {sent : List Outbound} (hs : r.journal.current = some s) (hid : s.id = info.id)
    (hst : r.state.isComplete) (h : Step r (.event now ⟨device, .cursor x info⟩) q sent) :
    r.backfill.isSome ∧ ¬ (s.receiveCursor x).isStalled ∨
      ∃ t p, Cleared r (s.receiveCursor x) t p ∧
        requestsOf sent = (p.repairable? (s.receiveCursor x).status).toList ∧
        q = match p.repairable? (s.receiveCursor x).status with
          | none => { p with state := .ofStatus (s.receiveCursor x).status }
          | some gap => { p.enter (t.asked gap x.position.next) with backfill := some gap } := by
  have hnot : ¬ r.state.isInProgress := fun hrunning =>
    UploadState.not_isComplete_of_isInProgress hrunning hst
  have hsame {s' : Session} (hs' : r.journal.current = some s') : s' = s :=
    Option.some_inj.mp (hs'.symm.trans hs)
  cases h with
  | ignored he =>
    rw [show _ = UploadState.transferNeeded from he] at hst
    cases hst
  | noticed he =>
    rw [he] at hst
    cases hst
  | left _ hout =>
    rw [isIn_iff.mpr ⟨s, hs, hid⟩] at hout
    cases hout
  | ticked hs' _ hout hlive =>
    obtain rfl := hsame hs'
    rcases hout with hrunning | ⟨-, hgap⟩
    · exact absurd hrunning hnot
    · exact .inl ⟨hgap, hlive⟩
  | stalled _ _ hrunning => exact absurd hrunning hnot
  | settled hs' _ _ hclear hgap =>
    obtain rfl := hsame hs'
    refine .inr ⟨_, _, hclear, ?_, ?_⟩
    · rw [hgap]
      exact requestsOf_announce ..
    · rw [hgap]
  | repaired hs' _ _ hclear hgap =>
    obtain rfl := hsame hs'
    refine .inr ⟨_, _, hclear, ?_, ?_⟩
    · rw [hgap]
      rfl
    · rw [hgap]

/-- While the log is complete and no hole is out, a record of the cursor channel is taken, and
then the next hole is asked for; without one the state is brought up to date. -/
theorem exists_mended {info : SessionInfo} (hs : r.journal.current = some s)
    (hid : s.id = info.id) (hst : r.state.isComplete) (hfree : r.backfill = none) (now : Instant)
    (x : Record) :
    ∃ a, r.handle now ⟨r.device, .cursor x info⟩ = .ok a ∧
      requestsOf a.sent =
        ((r.enter (s.receiveCursor x)).repairable? (s.receiveCursor x).status).toList ∧
      a.next = match (r.enter (s.receiveCursor x)).repairable? (s.receiveCursor x).status with
        | none =>
          { r.enter (s.receiveCursor x) with state := .ofStatus (s.receiveCursor x).status }
        | some gap =>
          { r.enter ((s.receiveCursor x).asked gap x.position.next) with backfill := some gap } := by
  obtain ⟨a, ha, hstep⟩ := exists_react r now (.cursor x info)
  rcases hstep.mends hs hid hst with ⟨hgap, -⟩ | ⟨t, p, hclear, hsent, hnext⟩
  · rw [hfree] at hgap
    cases hgap
  · obtain ⟨rfl, rfl⟩ := hclear.of_free hfree
    exact ⟨a, ha, hsent, hnext⟩

/-- While the log is complete and no hole is out, a record of the bulk channel is added. -/
theorem exists_added (hs : r.journal.current = some s) (hst : r.state.isComplete)
    (hfree : r.backfill = none) (now : Instant) (x : Record) :
    ∃ a, r.handle now ⟨r.device, .bulk x⟩ = .ok a ∧
      a.next = refreshed (r.enter (s.receiveBulk x)) (s.receiveBulk x).status ∧
      a.sent = refreshSent (r.enter (s.receiveBulk x)) (s.receiveBulk x).status := by
  obtain ⟨⟨q, sent, notes⟩, ha, hstep⟩ := exists_react r now (.bulk x)
  have hnot : ¬ r.state.isInProgress := fun hrunning =>
    UploadState.not_isComplete_of_isInProgress hrunning hst
  cases hstep with
  | ignored hnone =>
    rw [Ignores, hs] at hnone
    cases hnone
  | delivered _ hrunning => exact absurd hrunning hnot
  | fetched _ hrunning => exact absurd hrunning hnot
  | filling _ _ hgap =>
    rw [hfree] at hgap
    cases hgap
  | filled _ _ hgap =>
    rw [hfree] at hgap
    cases hgap
  | @added _ _ s' hs' =>
    obtain rfl : s' = s := Option.some_inj.mp (hs'.symm.trans hs)
    exact ⟨_, ha, rfl, rfl⟩
  | late _ hidle => rcases hidle with he | he <;> rw [he] at hst <;> cases hst

/-- While a hole is out, a record of the bulk channel is taken for it. The last one that counts
ends it. -/
theorem exists_filled {gap : Span} (hs : r.journal.current = some s) (hst : r.state.isComplete)
    (hgap : r.backfill = some gap) (now : Instant) (x : Record) :
    ∃ a, r.handle now ⟨r.device, .bulk x⟩ = .ok a ∧
      a.next = if (s.receiveBulk x).progress.isComplete then
        refreshed { r.enter (s.receiveBulk x).finish with backfill := none }
          (s.receiveBulk x).status
      else r.enter (s.receiveBulk x) := by
  obtain ⟨⟨q, sent, notes⟩, ha, hstep⟩ := exists_react r now (.bulk x)
  have hnot : ¬ r.state.isInProgress := fun hrunning =>
    UploadState.not_isComplete_of_isInProgress hrunning hst
  refine ⟨_, ha, ?_⟩
  have hsame {s' : Session} (hs' : r.journal.current = some s') : s' = s :=
    Option.some_inj.mp (hs'.symm.trans hs)
  cases hstep with
  | ignored hnone =>
    rw [Ignores, hs] at hnone
    cases hnone
  | delivered _ hrunning => exact absurd hrunning hnot
  | fetched _ hrunning => exact absurd hrunning hnot
  | filling hs' _ _ hopen =>
    obtain rfl := hsame hs'
    rw [hopen]
    rfl
  | filled hs' _ _ hdone =>
    obtain rfl := hsame hs'
    exact (if_pos hdone).symm
  | added _ _ hfree =>
    rw [hfree] at hgap
    cases hgap
  | late _ hidle => rcases hidle with he | he <;> rw [he] at hst <;> cases hst

end Logbook.Reconciler
