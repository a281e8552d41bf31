import Logbook.Proofs.Reconciler.Retention

/-!
# Where the records of a history come from

A history holds nothing that did not come from the device, and nothing in the wrong place: every
record in it came up in an event, while its session was the current one. What the cursor channel
brings is only stored if it names that session, and only once a transfer was started.

- `Moment.Records`: the moment at which a record came for a session.
- `Reconciler.Step.sessions_of_cursor`: a record of the cursor channel leaves other sessions alone.
- `Reconciler.Step.journal_of_idle`: before a transfer the cursor channel changes nothing.
- `Reconciler.history_stems_from_past`: nothing is fabricated, and nothing is misplaced.
-/

namespace Logbook

open Rehearsal Script

/-- At the moment a record came for a session, which was the current one. -/
def Moment.Records (m : Moment) (id : SessionId) (x : Record) : Prop :=
  m.before.journal.isIn id ∧ m.stimulus.Brings id x

namespace Reconciler

variable {r q : Reconciler} {s t : Session} {past : List Moment} {sent : List Outbound}
  {x : Record} {info : SessionInfo}

/-! ## The cursor channel -/

/-- Before a transfer was started, a record of the cursor channel is not looked at. -/
theorem Step.journal_of_idle {now : Instant}
    (h : Step r (.event now ⟨r.device, .cursor x info⟩) q sent)
    (hst : r.state = .unavailable ∨ r.state = .transferNeeded) : q.journal = r.journal := by
  have hidle (hout : r.state.isInProgress ∨ r.state.isComplete) : False := by
    rcases hst with hst | hst <;>
    · rw [hst] at hout
      rcases hout with hout | hout <;> cases hout
  cases h with
  | ignored | noticed | left => rfl
  | ticked _ _ hrun => exact (hidle (hrun.imp_right And.left)).elim
  | stalled _ _ hrun => exact (hidle (.inl hrun)).elim
  | settled _ _ hdone | repaired _ _ hdone => exact (hidle (.inr hdone)).elim

/-- A session that a record of the cursor channel does not name is after it just as it was. -/
theorem Step.sessions_of_cursor {now : Instant}
    (h : Step r (.event now ⟨r.device, .cursor x info⟩) q sent) {i : ℕ}
    (ht : q.journal.sessions[i]? = some t) (hother : t.id ≠ info.id) :
    r.journal.sessions[i]? = some t := by
  -- the current session is named by the record if it is changed at all
  have hrevised {s' t' : Session} (hs : r.journal.current = some s') (hid : s'.id = info.id)
      (htid : t'.id = s'.id) (ht : (r.journal.closed ++ [t'])[i]? = some t) :
      r.journal.sessions[i]? = some t := by
    rw [Journal.sessions_of_current hs]
    rcases Journal.getElem?_concat_cases ht with hclosed | ⟨-, rfl⟩
    · obtain ⟨hi, -⟩ := List.getElem?_eq_some_iff.mp hclosed
      exact (List.getElem?_append_left hi).trans hclosed
    · exact absurd (htid.trans hid) hother
  cases h with
  | ignored | noticed | left => exact ht
  | ticked hs hid | stalled hs hid =>
    refine hrevised hs hid ?_ ht
    exact Session.id_receiveCursor ..
  | settled hs hid _ hclear | repaired hs hid _ hclear =>
    cases hclear
    all_goals
      refine hrevised hs hid ?_ ht
      exact Session.id_receiveCursor ..

/-! ## Runs -/

/-- Every record of a session came while that session was the current one. -/
theorem exists_records {r₀ : Reconciler} (h : Run r₀ past r) (hstart : r₀.journal.sessions = []) :
    ∀ s ∈ r.journal.sessions, ∀ x ∈ s.store.records, ∃ m ∈ past, m.Records s.id x := by
  refine h.invariant (I := fun past r => ∀ s ∈ r.journal.sessions, ∀ x ∈ s.store.records,
    ∃ m ∈ past, m.Records s.id x) ?_ ?_
  · rw [hstart]
    intro s hs
    cases hs
  · intro past r u a ih hstep
    refine hstep.amends.records (P := fun id x => ∃ m ∈ (⟨r, u, a⟩ :: past : List Moment),
      m.Records id x) ?_ ?_
    · intro s hs x hx
      obtain ⟨m, hm, hrecords⟩ := ih s hs x hx
      exact ⟨m, List.mem_cons_of_mem _ hm, hrecords⟩
    · intro s x hs hbrings _
      exact ⟨_, List.mem_cons_self, isIn_iff.mpr ⟨s, hs, rfl⟩, hbrings⟩

/-- **Nothing in a history is fabricated or misplaced.** Every record in it came from the device in
an event of the run, while its session was the current one; a record of the cursor channel names the
session that it is in, leaves all others as they are, and is not stored before a transfer was
started. -/
theorem history_stems_from_past {device : DeviceId} {policy : Policy}
    (h : Run (begin device policy) past r) :
    (∀ y ∈ r.journal.history, ∃ m ∈ past, m.Records y.session y.record) ∧
      ∀ (m : Moment) (now : Instant) (d : DeviceId) (x : Record) (info : SessionInfo), m ∈ past →
        m.stimulus = .event now ⟨d, .cursor x info⟩ →
        (∀ (i : ℕ) (t : Session), m.after.next.journal.sessions[i]? = some t →
          t.id ≠ info.id → m.before.journal.sessions[i]? = some t) ∧
        (m.before.state = .unavailable ∨ m.before.state = .transferNeeded →
          m.after.next.journal = m.before.journal) := by
  constructor
  · intro y hy
    obtain ⟨s, hs, hy⟩ := Journal.mem_history.mp hy
    obtain ⟨hrecord, hsession, -⟩ := Session.mem_history.mp hy
    rw [hsession]
    exact exists_records h rfl s hs _ hrecord
  · rintro ⟨before, stimulus, after⟩ now d x info hm rfl
    have hstep := h.step_of_mem hm
    obtain rfl : d = before.device := hstep.device_eq
    exact ⟨fun i t ht hother => hstep.sessions_of_cursor ht hother, hstep.journal_of_idle⟩

/-- One record comes on each channel. -/
def bothChannels : List Inbound :=
  [Device.standard.start (pos 0) (pos 0), Device.standard.bulk (pos 0),
    Device.standard.cursor (pos 1)]

/-- The two records of the history come from there, the second one from the cursor channel. -/
theorem history_stems_from_both_channels :
    ∃ past r m, Run (begin Device.standard.id .standard) past r ∧ m ∈ past ∧
      m.stimulus = .event now (Device.standard.cursor (pos 1)) ∧
      r.journal.history.map (·.record) = [Device.record (pos 0), Device.record (pos 1)] ∧
      (∀ y ∈ r.journal.history, ∃ m ∈ past, m.Records y.session y.record) ∧
      (∀ (i : ℕ) (t : Session), m.after.next.journal.sessions[i]? = some t →
        t.id ≠ Device.standard.info.id → m.before.journal.sessions[i]? = some t) ∧
      (m.before.state = .unavailable ∨ m.before.state = .transferNeeded →
        m.after.next.journal = m.before.journal) := by
  have hrun := run_rehearse .standard bothChannels
  obtain ⟨m, hm, hcursor⟩ : ∃ m ∈ (rehearse .standard bothChannels).1,
      m.stimulus = .event now (Device.standard.cursor (pos 1)) := by decide
  obtain ⟨hstems, hspares⟩ := history_stems_from_past hrun
  exact ⟨_, _, m, hrun, hm, hcursor, by decide, hstems, hspares m _ _ _ _ hm hcursor⟩

end Reconciler

end Logbook
