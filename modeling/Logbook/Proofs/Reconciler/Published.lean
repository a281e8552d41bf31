import Logbook.Proofs.Reconciler.Outstanding
import Logbook.Proofs.Reconciler.Repair

/-!
# What a complete state tells

The complete state that callers see is a snapshot of the current session. While holes are filled it
is not taken anew with every record, so it may lag behind; but what it tells stays true, and once
no hole is left it is up to date again.

- `Session.Backs`: the session holds at least what a complete state tells.
- `Reconciler.Truthful`: the current session backs the complete state, and is told exactly if holes
  are not filled; `Reconciler.Truthful.step`: every rule keeps it so.
- `Reconciler.Whole`: no position is missing between the bounds and above the floor.
- `Reconciler.Step.fresh`: after a record or a start that leaves the log whole, the state is new.
- `Reconciler.complete_state_backed`: all of this after every run.
-/

namespace Logbook

open Rehearsal Script

/-- A record comes, or the caller wants a transfer. -/
def Stimulus.updates : Stimulus → Bool
  | .event _ ⟨_, .cursor ..⟩ => true
  | .event _ ⟨_, .bulk _⟩ => true
  | .event _ ⟨_, .start ..⟩ => true
  | _ => false

/-! ## Snapshots that lag behind -/

/-- The session holds at least what a complete state tells: as many records, from a position that is
not above the lowest one to a position that is not below the highest one. -/
structure Session.Backs (s : Session) (lowest highest : Option Position) (total : UInt64) :
    Prop where
  total : total.toNat ≤ s.store.size
  lowest : ∀ p, lowest = some p → ∃ q, s.status.lowest = some q ∧ q ≤ p
  highest : ∀ p, highest = some p → ∃ q, s.status.highest = some q ∧ p ≤ q

namespace Session

variable {s t : Session} {lowest highest : Option Position} {total : UInt64}

/-- A session backs its own snapshot. -/
theorem backs_status (s : Session) : s.Backs s.status.lowest s.status.highest s.status.count where
  total := by
    show (UInt64.ofNat s.store.size).toNat ≤ s.store.size
    rw [UInt64.toNat_ofNat']
    exact Nat.mod_le ..
  lowest p hp := ⟨p, hp, Nat.le_refl _⟩
  highest p hp := ⟨p, hp, Nat.le_refl _⟩

/-- A session that holds more backs what was backed before. -/
theorem Backs.mono (h : s.Backs lowest highest total) (hheld : ∀ p ∈ s.store, p ∈ t.store)
    (hsize : s.store.size ≤ t.store.size) : t.Backs lowest highest total where
  total := Nat.le_trans h.total hsize
  lowest p hp := by
    obtain ⟨q, hq, hle⟩ := h.lowest p hp
    have hq : q ∈ t.store := hheld q (Store.lowest?_eq_some hq).1
    obtain ⟨span, hspan, hlowest, -⟩ := Store.exists_bounded hq
    exact ⟨span.first, hlowest, Nat.le_trans (hspan.within q hq).1 hle⟩
  highest p hp := by
    obtain ⟨q, hq, hle⟩ := h.highest p hp
    have hq : q ∈ t.store := hheld q (Store.highest?_eq_some hq).1
    obtain ⟨span, hspan, -, hhighest⟩ := Store.exists_bounded hq
    exact ⟨span.last, hhighest, Nat.le_trans hle (hspan.within q hq).2⟩

/-- One more record does no harm. -/
theorem Backs.stored (h : s.Backs lowest highest total) {x : Record}
    (hstore : t.store = s.store.insert x ∨ t.store = s.store) : t.Backs lowest highest total := by
  rcases hstore with hstore | hstore
  · refine h.mono ?_ ?_
    · intro p hp
      rw [hstore]
      exact Store.mem_insert.mpr (.inr hp)
    · rw [hstore, Store.size_insert]
      split <;> omega
  · refine h.mono ?_ ?_
    · intro p hp
      rwa [hstore]
    · rw [hstore]

theorem Backs.receiveCursor (h : s.Backs lowest highest total) {x : Record}
    (hstore : t.store = (s.receiveCursor x).store) : t.Backs lowest highest total := by
  rw [store_receiveCursor] at hstore
  split at hstore
  · exact h.stored (.inl hstore)
  · exact h.stored (x := x) (.inr hstore)

theorem Backs.receiveBulk (h : s.Backs lowest highest total) {x : Record}
    (hstore : t.store = (s.receiveBulk x).store) : t.Backs lowest highest total := by
  rw [store_receiveBulk] at hstore
  split at hstore
  · exact h.stored (.inl hstore)
  · exact h.stored (x := x) (.inr hstore)

end Session

namespace Reconciler

variable {r q : Reconciler} {s t : Session} {u : Stimulus} {past : List Moment}
  {sent : List Outbound}

/-! ## The state and the session -/

/-- What a complete state tells is true of the current session, and all of it if holes are not
filled. -/
structure Truthful (r : Reconciler) : Prop where
  backed : ∀ lowest highest total, r.state = .complete lowest highest total →
    ∃ s, r.journal.current = some s ∧ s.Backs lowest highest total
  exact : r.backfillOnGap = false → r.state.isComplete →
    ∀ s, r.journal.current = some s → r.state = .ofStatus s.status

namespace Truthful

/-- A state that is not complete tells nothing of the session. -/
theorem of_incomplete (hst : r.state.isComplete = false) : Truthful r where
  backed lowest highest total he := by
    rw [he] at hst
    cases hst
  exact _ he := by
    rw [hst] at he
    cases he

/-- The state was just made from the snapshot. -/
theorem of_fresh (hs : r.journal.current = some s) (hst : r.state = .ofStatus s.status) :
    Truthful r where
  backed lowest highest total he := by
    rw [hst] at he
    cases he
    exact ⟨s, hs, s.backs_status⟩
  exact _ _ s' hs' := by
    obtain rfl := Option.some_inj.mp (hs'.symm.trans hs)
    exact hst

/-- Where holes are filled the state may stay as it is while the session grows. -/
theorem of_lagging (h : Truthful r) (hon : q.backfillOnGap) (hst : q.state = r.state)
    (hs : r.journal.current = some s) (ht : q.journal.current = some t)
    (hbacks : ∀ {lowest highest total}, s.Backs lowest highest total →
      t.Backs lowest highest total) : Truthful q where
  backed lowest highest total he := by
    rw [hst] at he
    obtain ⟨s', hs', hback⟩ := h.backed _ _ _ he
    obtain rfl := Option.some_inj.mp (hs'.symm.trans hs)
    exact ⟨t, ht, hbacks hback⟩
  exact hoff := by
    rw [hon] at hoff
    cases hoff

/-- A state that is brought up to date lags behind only while a hole is yet to be filled. -/
theorem refreshed (h : Truthful r) (hst : q.state = r.state) (hs : r.journal.current = some s)
    (ht : q.journal.current = some t)
    (hbacks : ∀ {lowest highest total}, s.Backs lowest highest total →
      t.Backs lowest highest total) : Truthful (q.refreshed t.status) := by
  cases hgap : q.repairable? t.status with
  | none => exact of_fresh (s := t) ht (state_refreshed_of_none hgap)
  | some gap =>
    exact h.of_lagging (repairable?_eq_some hgap).1 ((state_refreshed_of_some hgap).trans hst) hs
      ht hbacks

/-- **Every rule keeps the state true**, provided that a hole is out only where holes are filled. -/
theorem step (h : Truthful r) (hout : Outstanding r) (hstep : Step r u q sent) : Truthful q := by
  have hon {gap : Span} (hgap : r.backfill = some gap) : r.backfillOnGap := (hout.gap gap hgap).2.1
  cases hstep with
  | ignored => exact h
  | disconnected | noticed | left | delivered | asked => exact of_incomplete rfl
  | @ticked _ x _ s hs _ hst =>
    rcases hst with hrunning | ⟨-, hgap⟩
    · exact of_incomplete
        (Bool.eq_false_iff.mpr (UploadState.not_isComplete_of_isInProgress hrunning))
    · obtain ⟨gap, hgap⟩ := Option.isSome_iff_exists.mp hgap
      exact h.of_lagging (hon hgap) rfl hs rfl fun hback => hback.receiveCursor rfl
  | stalled | fetched | cancelled => exact of_fresh rfl rfl
  | settled _ _ _ hclear => cases hclear <;> exact of_fresh rfl rfl
  | repaired hs _ _ hclear hgap =>
    obtain ⟨-, -, hstate, -, -, hstore, -⟩ := hclear.current
    exact h.of_lagging (repairable?_eq_some hgap).1 hstate hs rfl fun hback =>
      hback.receiveCursor hstore
  | filling hs _ hgap =>
    exact h.of_lagging (hon hgap) rfl hs rfl fun hback => hback.receiveBulk rfl
  | @filled _ x s _ hs =>
    exact h.refreshed (t := (s.receiveBulk x).finish) rfl hs rfl fun hback =>
      hback.receiveBulk rfl
  | added hs => exact h.refreshed rfl hs rfl fun hback => hback.receiveBulk rfl
  | late _ hst =>
    refine of_incomplete ?_
    show r.state.isComplete = false
    rcases hst with he | he <;> rw [he] <;> rfl
  | unneeded | covered => exact of_fresh rfl rfl
  | dropped _ hgap =>
    obtain ⟨-, -, s, hs, -⟩ := hout.gap _ hgap
    refine h.of_lagging (t := s.finish) (hon hgap) rfl hs ?_ fun hback => hback.mono ?_ ?_
    · rw [update_of_current hs]
      rfl
    · exact fun _ hp => hp
    · exact Nat.le_refl _
  | reset =>
    refine of_incomplete ?_
    show (if r.state.isUnavailable then r.state else .transferNeeded).isComplete = false
    split
    · next hst =>
      rw [UploadState.isUnavailable_iff.mp hst]
      rfl
    · rfl

end Truthful

/-! ## Logs without a hole -/

/-- No position is missing between the bounds of the session and above the floor. -/
def Whole (r : Reconciler) (s : Session) : Prop :=
  ∀ p, (∃ q ∈ s.store, q ≤ p) → r.floor ≤ p → (∃ q ∈ s.store, p ≤ q) → p ∈ s.store

/-- A whole log has no hole to be filled. -/
theorem Whole.repairable? (h : r.Whole s) (hs : r.journal.current = some s) :
    r.repairable? s.status = none := by
  cases hgap : r.repairable? s.status with
  | none => rfl
  | some gap =>
    obtain ⟨span, hspan, -, hfirst, hlower, hupper⟩ := between_of_repairable? hs rfl hgap
    have habove := Position.le_iff.mp hfirst.first_le
    rw [Position.toNat_max] at habove
    -- the first position of the hole would be held
    have hheld : gap.first ∈ s.store := by
      refine h gap.first ⟨span.first, hspan.first, Nat.le_of_lt hlower⟩ ?_
        ⟨span.last, hspan.last, ?_⟩
      · rw [Position.le_iff]
        omega
      · exact Nat.le_trans hfirst.ordered (Nat.le_of_lt hupper)
    exact absurd hheld (hfirst.not_held _ ⟨Nat.le_refl _, hfirst.ordered⟩)

/-- The state of a whole log that is brought up to date tells the session. -/
theorem Whole.state_refreshed (h : r.Whole s) (hs : r.journal.current = some s) :
    (r.refreshed s.status).state = .ofStatus s.status :=
  state_refreshed_of_none (h.repairable? hs)

/-- After a record or a start that leaves the log complete and whole, with no hole out, the state
tells the session. -/
theorem Step.fresh (h : Step r u q sent) (hu : u.updates) (hst : q.state.isComplete)
    (hfree : q.backfill = none) (ht : q.journal.current = some t) (hwhole : q.Whole t) :
    q.state = .ofStatus t.status := by
  cases h with
  | @ignored _ e hquiet =>
    cases e with
    | link | cancel => cases hu
    | cursor =>
      rw [show r.state = .transferNeeded from hquiet] at hst
      cases hst
    | bulk =>
      rw [show r.journal.current = none from hquiet] at ht
      cases ht
    | start => exact hquiet.elim
  | disconnected | noticed | left | delivered | asked => cases hst
  | ticked _ _ hout =>
    rcases hout with hrunning | ⟨-, hgap⟩
    · exact absurd hst (UploadState.not_isComplete_of_isInProgress hrunning)
    · rw [backfill_enter] at hfree
      rw [hfree] at hgap
      cases hgap
  | stalled | fetched | unneeded | covered =>
    cases ht
    rfl
  | settled _ _ _ hclear => cases hclear <;> cases ht <;> rfl
  | repaired => cases hfree
  | filling _ _ hgap =>
    rw [backfill_enter, hgap] at hfree
    cases hfree
  | @filled _ x s =>
    cases ht
    exact Whole.state_refreshed (s := (s.receiveBulk x).finish) (by exact hwhole) rfl
  | added =>
    cases ht
    exact Whole.state_refreshed (by exact hwhole) rfl
  | late _ hidle =>
    rw [state_enter] at hst
    rcases hidle with he | he <;> rw [he] at hst <;> cases hst
  | cancelled | dropped | reset => cases hu

/-! ## Runs -/

theorem Truthful.after_run {device : DeviceId} {policy : Policy}
    (h : Run (begin device policy) past r) : Truthful r := by
  refine (h.invariant (I := fun _ r => Outstanding r ∧ Truthful r) ?_ ?_).2
  · exact ⟨.of_nothing rfl rfl, of_incomplete rfl⟩
  · rintro _ _ _ _ ⟨hout, htrue⟩ hstep
    exact ⟨hout.step hstep, htrue.step hout hstep⟩

/-- **A complete state tells the truth about the log.** There is a current session, and it has at
least as many records and reaches at least as far as the state tells. The state is just its
snapshot if holes are not filled; and if they are, it is so right after every record and every
start after which no hole is out and none is left above the floor. -/
theorem complete_state_backed {device : DeviceId} {policy : Policy}
    (h : Run (begin device policy) past r) {lowest highest : Option Position} {total : UInt64}
    (hst : r.state = .complete lowest highest total) :
    ∃ s, r.journal.current = some s ∧ s.Backs lowest highest total ∧
      (policy.backfillOnGap = false → r.state = .ofStatus s.status) ∧
      ∀ m, past.head? = some m → m.stimulus.updates → r.backfill = none → r.Whole s →
        r.state = .ofStatus s.status := by
  have hcomplete : r.state.isComplete := by
    rw [hst]
    rfl
  obtain ⟨s, hs, hback⟩ := (Truthful.after_run h).backed _ _ _ hst
  refine ⟨s, hs, hback, ?_, ?_⟩
  · intro hoff
    refine (Truthful.after_run h).exact ?_ hcomplete s hs
    rw [h.backfillOnGap, hoff]
  · intro m hm hupdates hfree hwhole
    have hstep := h.step_of_mem (List.mem_of_mem_head? hm)
    rw [h.next_of_head? hm] at hstep
    exact hstep.fresh hupdates hcomplete hfree hs hwhole

/-- A hole shows after a transfer of one position, and it is filled. -/
def holeFilled : List Inbound :=
  [Device.standard.start (pos 0) (pos 0), Device.standard.bulk (pos 0),
    Device.standard.cursor (pos 2), Device.standard.bulk (pos 1)]

/-- The record that fills it makes the log whole, and the state tells all three records. -/
theorem complete_state_backed_after_repair :
    ∃ past r s m, Run (begin Device.standard.id .standard) past r ∧ r.state = complete 0 2 3 ∧
      r.journal.current = some s ∧ past.head? = some m ∧ m.stimulus.updates ∧ r.backfill = none ∧
      r.Whole s ∧ s.Backs (some (pos 0)) (some (pos 2)) 3 ∧
      (Policy.standard.backfillOnGap = false → r.state = .ofStatus s.status) ∧
      r.state = .ofStatus s.status := by
  have hrun := run_rehearse .standard holeFilled
  obtain ⟨m, hm, hupdates⟩ : ∃ m, (rehearse .standard holeFilled).1.head? = some m ∧
      m.stimulus.updates := ⟨_, rfl, by decide⟩
  have hst : (rehearse .standard holeFilled).2.state =
      .complete (some (pos 0)) (some (pos 2)) 3 := by decide
  obtain ⟨s, hs, hback, hoff, hon⟩ := complete_state_backed hrun hst
  have hlist : s.store.records.map (·.position) = [pos 0, pos 1, pos 2] := by
    have hall : (rehearse .standard holeFilled).2.journal.current.all fun s =>
        s.store.records.map (·.position) = [pos 0, pos 1, pos 2] := by decide
    rw [hs] at hall
    exact of_decide_eq_true hall
  have hheld (p : Position) : p ∈ s.store ↔ p.toNat ≤ 2 := by
    rw [Store.mem_iff, ← List.mem_map, hlist]
    simp only [List.mem_cons, List.not_mem_nil, or_false, Position.ext_iff]
    show p.toNat = 0 ∨ p.toNat = 1 ∨ p.toNat = 2 ↔ _
    omega
  have hwhole : (rehearse .standard holeFilled).2.Whole s := by
    rintro p - - ⟨q, hq, hle⟩
    exact (hheld p).mpr (Nat.le_trans hle ((hheld q).mp hq))
  exact ⟨_, _, s, m, hrun, hst, hs, hm, hupdates, by decide, hwhole, hback, hoff,
    hon m hm hupdates (by decide) hwhole⟩

end Reconciler

end Logbook
