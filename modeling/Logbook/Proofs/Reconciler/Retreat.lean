import Logbook.Proofs.Reconciler.Expectation

/-!
# When the expectation goes back

A record of the cursor channel that is stored moves the expectation past itself, and one that is
ignored leaves it alone. So the expectation would only ever go forward, if a hole that is asked for
at that moment did not set it too: the hole takes the record for the place where the channel
stands, also a record that was just ignored because it lies behind.

- `Session.le_nextCursor_receiveCursor`: a record by itself never takes the expectation back.
- `Reconciler.Step.advances`: what a record of the cursor channel does to the expectation.
- `Reconciler.expectation_kept_iff`: the expectation goes back just when a hole is asked for and the
  record is more than one position behind.
-/

namespace Logbook

open Rehearsal Script

/-! ## Records by themselves -/

/-- A record of the cursor channel takes the expectation past itself or leaves it where it is. -/
theorem Session.le_nextCursor_receiveCursor {s : Session} {e : Position}
    (he : s.nextCursor = some e) (x : Record) :
    ∃ e', (s.receiveCursor x).nextCursor = some e' ∧ e ≤ e' := by
  rw [nextCursor_receiveCursor]
  by_cases haccepts : s.Accepts x
  · obtain ⟨hset, hahead⟩ := haccepts
    have hle := Position.isSet_iff.mp hset
    have hahead : e ≤ x.position := by
      unfold expectedCursor at hahead
      rw [he] at hahead
      exact hahead
    have hahead := Position.le_iff.mp hahead
    refine ⟨x.position.next, if_pos ⟨hset, by assumption⟩, ?_⟩
    rw [Position.le_iff, Position.toNat_next]
    omega
  · exact ⟨e, by rw [if_neg haccepts, he], Nat.le_refl _⟩

namespace Reconciler

variable {r q : Reconciler} {s : Session} {sent : List Outbound} {x : Record}
  {info : SessionInfo} {e : Position}

/-- What a record of the cursor channel does to the expectation of a session, which is `t`
afterwards. -/
inductive Advances (s : Session) (x : Record) (sent : List Outbound) (t : Session) : Prop
  /-- The record is not taken. -/
  | keeps (h : t.nextCursor = s.nextCursor) (hquiet : requestsOf sent = [])
  /-- The record is taken as any other. -/
  | takes (h : t.nextCursor = (s.receiveCursor x).nextCursor) (hquiet : requestsOf sent = [])
  /-- A hole is asked for, with the channel standing at the record. -/
  | asks (h : t.nextCursor = some x.position.next) (hasks : requestsOf sent ≠ [])

/-- A record of the cursor channel leaves the session the current one. -/
theorem Step.advances {now : Instant} (h : Step r (.event now ⟨r.device, .cursor x info⟩) q sent)
    (hs : r.journal.current = some s) :
    ∃ t, q.journal.current = some t ∧ t.id = s.id ∧ Advances s x sent t := by
  have hcurrent {s' : Session} (hs' : r.journal.current = some s') : s' = s :=
    Option.some_inj.mp (hs'.symm.trans hs)
  cases h with
  | ignored | noticed | left => exact ⟨s, hs, rfl, .keeps rfl rfl⟩
  | ticked hs' =>
    obtain rfl := hcurrent hs'
    exact ⟨_, rfl, Session.id_receiveCursor .., .takes rfl rfl⟩
  | stalled hs' =>
    obtain rfl := hcurrent hs'
    exact ⟨_, rfl, Session.id_receiveCursor .., .takes rfl (requestsOf_announce ..)⟩
  | settled hs' _ _ hclear =>
    obtain rfl := hcurrent hs'
    cases hclear <;>
      exact ⟨_, rfl, Session.id_receiveCursor .., .takes rfl (requestsOf_announce ..)⟩
  | repaired hs' _ _ hclear =>
    obtain rfl := hcurrent hs'
    cases hclear <;>
      exact ⟨_, rfl, Session.id_receiveCursor .., .asks rfl (List.cons_ne_nil _ _)⟩

/-! ## The exact condition -/

/-- **A record of the cursor channel takes the expectation back just when a hole is asked for at
that moment and the record is more than one position behind.** -/
theorem expectation_kept_iff (hs : r.journal.current = some s) (he : s.nextCursor = some e)
    (x : Record) (info : SessionInfo) (now : Instant) :
    ∃ a t e', r.handle now ⟨r.device, .cursor x info⟩ = .ok a ∧
      a.next.journal.current = some t ∧ t.id = s.id ∧ t.nextCursor = some e' ∧
      (e ≤ e' ↔ requestsOf a.sent = [] ∨ e ≤ x.position.next) := by
  obtain ⟨a, ha, hstep⟩ := exists_react r now (.cursor x info)
  obtain ⟨t, ht, hid, hadvances⟩ := hstep.advances hs
  cases hadvances with
  | keeps hnext hquiet =>
    exact ⟨a, t, e, ha, ht, hid, hnext.trans he, iff_of_true (Nat.le_refl _) (.inl hquiet)⟩
  | takes hnext hquiet =>
    obtain ⟨e', he', hle⟩ := Session.le_nextCursor_receiveCursor he x
    exact ⟨a, t, e', ha, ht, hid, hnext.trans he', iff_of_true hle (.inl hquiet)⟩
  | asks hnext hasks =>
    exact ⟨a, t, _, ha, ht, hid, hnext, (or_iff_right hasks).symm⟩

/-- A hole at 1 is asked for and given up. -/
def holeGivenUp : List Inbound :=
  [Device.standard.start (pos 0) (pos 0), Device.standard.bulk (pos 0),
    Device.standard.cursor (pos 2), Device.standard.cancel]

/-- After it the device repeats its latest record: the hole is asked for again, and the expectation
stays. -/
theorem expectation_kept_iff_on_repetition :
    ∃ past r s a t e', Run (begin Device.standard.id .standard) past r ∧
      r.journal.current = some s ∧ s.nextCursor = some (pos 3) ∧
      r.handle now (Device.standard.cursor (pos 2)) = .ok a ∧ requestsOf a.sent = [span 1 1] ∧
      a.next.journal.current = some t ∧ t.id = s.id ∧ t.nextCursor = some e' ∧
      (pos 3 ≤ e' ↔ requestsOf a.sent = [] ∨ pos 3 ≤ (pos 2).next) := by
  have hrun := run_rehearse .standard holeGivenUp
  obtain ⟨s, hs, he⟩ : ∃ s, (rehearse .standard holeGivenUp).2.journal.current = some s ∧
      s.nextCursor = some (pos 3) := Option.bind_eq_some_iff.mp (by decide)
  obtain ⟨a, t, e', ha, ht, hid, he', hkept⟩ :=
    expectation_kept_iff hs he (Device.record (pos 2)) Device.standard.info now
  have hasked : requestsOf a.sent = [span 1 1] :=
    of_decide_eq_true
      (of_handle (P := fun a => decide (requestsOf a.sent = [span 1 1])) ha (by decide))
  exact ⟨_, _, s, a, t, e', hrun, hs, he, ha, hasked, ht, hid, he', hkept⟩

/-- After it the device repeats its first record: the expectation goes from 3 back to 1. -/
theorem expectation_goes_back :
    ¬ ∀ (past : List Moment) (r : Reconciler) (s t : Session) (e : Position) (x : Record)
        (info : SessionInfo) (now : Instant) (a : Reaction),
      Run (begin Device.standard.id .standard) past r → r.journal.current = some s →
        s.nextCursor = some e → r.handle now ⟨r.device, .cursor x info⟩ = .ok a →
          a.next.journal.current = some t → t.id = s.id →
            ∃ e', t.nextCursor = some e' ∧ e ≤ e' := by
  intro hall
  have hrun := run_rehearse .standard holeGivenUp
  obtain ⟨s, hs, he⟩ : ∃ s, (rehearse .standard holeGivenUp).2.journal.current = some s ∧
      s.nextCursor = some (pos 3) := Option.bind_eq_some_iff.mp (by decide)
  obtain ⟨a, ha, hstep⟩ := exists_react (rehearse .standard holeGivenUp).2 now
    (.cursor (Device.record (pos 0)) Device.standard.info)
  obtain ⟨t, ht, hid, -⟩ := hstep.advances hs
  obtain ⟨e', he', hle⟩ := hall _ _ s t _ _ _ _ a hrun hs he ha ht hid
  have hback : a.next.expected? = some (pos 1) :=
    of_decide_eq_true
      (of_handle (P := fun a => decide (a.next.expected? = some (pos 1))) ha (by decide))
  rw [expected?_of_current ht, he'] at hback
  cases hback
  exact absurd hle (by decide)

end Reconciler

end Logbook
