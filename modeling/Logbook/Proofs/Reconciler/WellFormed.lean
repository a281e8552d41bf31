import Logbook.Proofs.Reconciler.Requests
import Logbook.Proofs.Reconciler.Told
import Logbook.Proofs.Wire.RoundTrip

/-!
# Whatever comes, what is sent is well formed

Events are taken as they come: a record may stand at the unset mark, and the bounds of a transfer
may be out of order. None of it gets through to what is sent. The spans that are asked for are in
order and set, a complete state has bounds exactly if it has records, and these are in order and
set; so that everything that is sent reads back.

- `UploadState.WellFormed`, `Report.WellFormed`: what is sent makes sense.
- `Session.wellFormed_status`: the state of a session whose records all have a place in the stream.
- `Reconciler.Turns.wellFormed`, `Reconciler.Step.wellFormed`: every rule leads to such a state, and
  sends only what is well formed.
- `Reconciler.sent_well_formed`: all that is sent over a run is well formed, and reads back.
-/

namespace Logbook

open Rehearsal Script

/-! ## What makes sense -/

/-- A complete state tells bounds exactly if it tells records, and they are in order. -/
def UploadState.WellFormed : UploadState → Prop
  | .complete lowest highest total =>
    (lowest.isSome ↔ 0 < total) ∧ (highest.isSome ↔ 0 < total) ∧
      ∀ p q, lowest = some p → highest = some q → p ≤ q ∧ q ≤ .last
  | _ => True

/-- A request is for a span in order, and a state makes sense. -/
def Report.WellFormed : Report → Prop
  | .request span => span.first ≤ span.last ∧ span.last ≤ .last
  | .state reported => reported.WellFormed

namespace UploadState

theorem wellFormed_of_isInProgress {state : UploadState} (h : state.isInProgress) :
    state.WellFormed := by
  obtain ⟨transferred, requested, rfl⟩ := isInProgress_iff.mp h
  exact trivial

/-- The bounds of a state that makes sense are set. -/
theorem WellFormed.isSet {lowest highest : Option Position} {total : UInt64}
    (h : (UploadState.complete lowest highest total).WellFormed) :
    (∀ p, lowest = some p → p.IsSet) ∧ ∀ p, highest = some p → p.IsSet := by
  obtain ⟨hlowest, hhighest, hbounds⟩ := h
  constructor
  · rintro p rfl
    obtain ⟨q, rfl⟩ := Option.isSome_iff_exists.mp (hhighest.mpr (hlowest.mp rfl))
    obtain ⟨hle, hlast⟩ := hbounds p q rfl rfl
    exact Position.isSet_iff.mpr (Nat.le_trans hle hlast)
  · rintro q rfl
    obtain ⟨p, rfl⟩ := Option.isSome_iff_exists.mp (hlowest.mpr (hhighest.mp rfl))
    exact Position.isSet_iff.mpr (hbounds p q rfl rfl).2

end UploadState

/-- What is well formed reads back. -/
theorem Report.WellFormed.readsBack {m : Outbound} (h : m.report.WellFormed) :
    Wire.ReadsBack m := by
  obtain ⟨device, report⟩ := m
  cases report with
  | request span =>
    obtain ⟨hordered, hlast⟩ := h
    have hset : span.last.IsSet := Position.isSet_iff.mpr hlast
    have hfirst : span.first ∈ span := ⟨Nat.le_refl _, hordered⟩
    exact Wire.readsBack_request device
      (Wire.readsBack_span (Span.isSet_of_mem hset hfirst) hset)
  | state state =>
    refine Wire.readsBack_update device (Wire.readsBack_state ?_)
    rintro lowest highest total rfl
    exact UploadState.WellFormed.isSet h

/-- The state that a session stands for makes sense if the session holds no record at the unset
mark. -/
theorem Session.wellFormed_status {s : Session} (h : ∀ p ∈ s.store, p.IsSet) :
    (UploadState.ofStatus s.status).WellFormed := by
  by_cases hheld : ∃ p, p ∈ s.store
  · obtain ⟨p, hp⟩ := hheld
    obtain ⟨span, hspan, -⟩ := Store.exists_bounded hp
    have hlast := Position.isSet_iff.mp (h _ hspan.last)
    have htotal := hspan.toNat_size (h _ hspan.last)
    have hsome : 0 < UInt64.ofNat s.store.size := by
      rw [UInt64.lt_iff_toNat_lt, htotal]
      exact hspan.size_pos
    rw [ofStatus_status hspan]
    refine ⟨iff_of_true rfl hsome, iff_of_true rfl hsome, ?_⟩
    intro first last hfirst hlast'
    cases hfirst
    cases hlast'
    exact ⟨hspan.ordered, hlast⟩
  · have hempty : s.store.records = [] :=
      List.eq_nil_iff_forall_not_mem.mpr fun x hx => hheld ⟨_, x, hx, rfl⟩
    show UploadState.WellFormed
      (.complete s.store.lowest? s.store.highest? (UInt64.ofNat s.store.size))
    unfold Store.lowest? Store.highest? Store.size
    rw [hempty]
    exact ⟨by decide, by decide, nofun⟩

namespace Reconciler

variable {r q : Reconciler} {u : Stimulus} {past : List Moment} {sent : List Outbound}
  {device : DeviceId} {policy : Policy}

/-- The state that a rule leads to makes sense, provided that the current session holds no record
at the unset mark. -/
theorem Turns.wellFormed (h : Turns r u q sent) (hr : r.state.WellFormed)
    (hset : ∀ p, q.holds p → p.IsSet) : q.state.WellFormed := by
  cases h with
  | stays hstate => exact hstate ▸ hr
  | lost hstate | needed hstate =>
    rw [hstate]
    exact trivial
  | counts _ hrunning | asks _ hrunning => exact UploadState.wellFormed_of_isInProgress hrunning
  | completes ht hstate =>
    rw [hstate]
    exact Session.wellFormed_status fun p hp => hset p ((holds_of_current ht).mpr hp)

/-- What a rule sends is well formed if the state that it leads to makes sense. -/
theorem Step.wellFormed (h : Step r u q sent) (hq : q.state.WellFormed) :
    ∀ m ∈ sent, m.report.WellFormed := by
  rintro ⟨device, report⟩ hm
  cases report with
  | request span =>
    have hspan : span ∈ requestsOf sent := List.mem_filterMap.mpr ⟨_, hm, rfl⟩
    obtain ⟨hordered, hset⟩ := h.asks.ordered span hspan
    exact ⟨hordered, Position.isSet_iff.mp hset⟩
  | state state =>
    have hstate : state ∈ statesOf sent := List.mem_filterMap.mpr ⟨_, hm, rfl⟩
    rw [h.announces.states] at hstate
    split at hstate
    · cases hstate
    · rw [List.mem_singleton.mp hstate]
      exact hq

/-- **Whatever comes, all that is sent is well formed.** Spans that are asked for are in order and
set; a complete state, be it sent or the present one, has bounds exactly if it has records, and they
are in order and set; and everything that is sent reads back. -/
theorem sent_well_formed (h : Run (begin device policy) past r) :
    (∀ m ∈ told past, m.report.WellFormed ∧ Wire.ReadsBack m) ∧ r.state.WellFormed := by
  suffices hall : (∀ m ∈ told past, m.report.WellFormed) ∧ r.state.WellFormed from
    ⟨fun m hm => ⟨hall.1 m hm, (hall.1 m hm).readsBack⟩, hall.2⟩
  induction h with
  | start => exact ⟨nofun, trivial⟩
  | refused _ _ ih => exact ih
  | @reacted past r u a h hu ih =>
    obtain ⟨htold, hr⟩ := ih
    have hstep := step_of_apply hu
    have hnext : Run (begin device policy) (⟨r, u, a⟩ :: past) a.next := .reacted h hu
    have hq := hstep.turns.wellFormed hr fun p hp => hnext.isSet_of_holds rfl hp
    refine ⟨?_, hq⟩
    intro m hm
    rw [told_cons] at hm
    rcases List.mem_append.mp hm with hm | hm
    · exact htold m hm
    · exact hstep.wellFormed hq m hm

/-- The caller wants a transfer from 5 down to 2, records come at the unset mark, and a hole shows
after a transfer of one position. -/
def oddEvents : List Inbound :=
  [Device.standard.cursor .unset, Device.standard.start (pos 5) (pos 2),
    Device.standard.start (pos 0) .unset, Device.standard.start (pos 0) (pos 0),
    Device.standard.bulk .unset, Device.standard.bulk (pos 0), Device.standard.cursor .unset,
    Device.standard.cursor (pos 2)]

/-- Two requests and four states are sent over it, and all of them read back. -/
theorem sent_well_formed_over_odd_events :
    ∃ past r, Run (begin Device.standard.id .standard) past r ∧
      requestsOf (told past) = [span 0 0, span 1 1] ∧
      statesOf (told past) =
        [.transferNeeded, .complete none none 0, .inProgress 0 1, complete 0 0 1] ∧
      (∀ m ∈ told past, m.report.WellFormed ∧ Wire.ReadsBack m) ∧ r.state.WellFormed := by
  have hrun := run_rehearse .standard oddEvents
  exact ⟨_, _, hrun, by decide, by decide, sent_well_formed hrun⟩

end Reconciler

end Logbook
