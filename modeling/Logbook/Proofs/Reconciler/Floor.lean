import Logbook.Proofs.Reconciler.Closed
import Logbook.Proofs.Reconciler.Repair

/-!
# The floor

Holes below the floor were given up and are not filled. The floor stands at zero, or past a hole
that was given up, and where it stands can be found out by making a hole.

- `Reconciler.Floored`: where the floor can stand.
- `Reconciler.probe`, `Reconciler.watch_probe`: two records with a hole between them tell on which
  side of the hole the floor is.
- `Reconciler.floor_le_of_forall`: a floor is not above another one that no hole tells from it.
-/

namespace Logbook

namespace Reconciler

variable {r q : Reconciler} {s t : Session} {u : Stimulus} {sent : List Outbound}
  {past : List Moment}

/-! ## Where the floor stands -/

/-- No hole begins at the first position of the stream, for it lies above a held one. -/
theorem one_le_of_repairable? {gap : Span} (ht : r.journal.current = some t)
    (hstore : t.store = s.store) (h : r.repairable? s.status = some gap) :
    1 ≤ gap.last.toNat := by
  obtain ⟨span, -, -, hfirst, hlower, -⟩ := between_of_repairable? ht hstore h
  have hordered := Position.le_iff.mp hfirst.ordered
  rw [Position.lt_iff] at hlower
  omega

/-- Where the floor can stand: at zero, or past a hole that was given up. -/
structure Floored (r : Reconciler) : Prop where
  gap : ∀ gap, r.backfill = some gap → r.backfillOnGap ∧ 1 ≤ gap.last.toNat
  floor : r.floor = .zero ∨ r.backfillOnGap ∧ 2 ≤ r.floor.toNat ∧ r.floor.IsSet

namespace Floored

/-- Without a hole out only the floor counts. -/
theorem of_free (hfree : r.backfill = none)
    (hfloor : r.floor = .zero ∨ r.backfillOnGap ∧ 2 ≤ r.floor.toNat ∧ r.floor.IsSet) :
    Floored r where
  gap gap hgap := by rw [hfree] at hgap; cases hgap
  floor := hfloor

/-- The floor rises past a hole that is given up. -/
theorem cleared (h : Floored r) (hclear : Cleared r s t q) : Floored q := by
  cases hclear with
  | free => exact ⟨h.gap, h.floor⟩
  | @givenUp gap hgap =>
    obtain ⟨hon, hlast⟩ := h.gap gap hgap
    -- the hole lies above the first position, so what follows it is above the second
    have hnext := Position.isSet_iff.mp (Position.isSet_next gap.last)
    have hfloor : r.floor.toNat ≤ 4294967294 := by
      rcases h.floor with he | ⟨-, -, hset⟩
      · rw [he]
        exact Nat.zero_le _
      · exact Position.isSet_iff.mp hset
    refine of_free rfl (.inr ⟨hon, ?_, ?_⟩)
    · show 2 ≤ (max r.floor gap.last.next).toNat
      rw [Position.toNat_max, Position.toNat_next]
      omega
    · show (max r.floor gap.last.next).IsSet
      rw [Position.isSet_iff, Position.toNat_max]
      omega

/-- Every rule keeps the floor where it can stand. -/
theorem step (h : Floored r) (hstep : Step r u q sent) : Floored q := by
  cases hstep with
  | ignored => exact h
  | noticed | ticked | stalled | delivered | fetched | filling | added | late | cancelled =>
    exact ⟨h.gap, h.floor⟩
  | disconnected | filled | unneeded | covered | asked | dropped => exact of_free rfl h.floor
  | left | reset => exact of_free rfl (.inl rfl)
  | settled _ _ _ hclear => exact ⟨(h.cleared hclear).gap, (h.cleared hclear).floor⟩
  | @repaired _ x _ s t q gap _ _ _ hclear hgap =>
    obtain ⟨hcurrent, -, -, -, -, hstore, -⟩ := hclear.current
    constructor
    · intro gap' he
      cases he
      exact ⟨(repairable?_eq_some hgap).1, one_le_of_repairable? hcurrent hstore hgap⟩
    · exact (h.cleared hclear).floor

/-- Where the floor can stand, as a number. -/
theorem toNat_floor (h : Floored r) :
    (r.floor.toNat = 0 ∨ 2 ≤ r.floor.toNat) ∧ r.floor.toNat ≤ 4294967294 := by
  rcases h.floor with he | ⟨-, hle, hset⟩
  · rw [he]
    exact ⟨.inl rfl, by decide⟩
  · exact ⟨.inr hle, Position.isSet_iff.mp hset⟩

theorem after_run {device : DeviceId} {policy : Policy} (h : Run (begin device policy) past r) :
    Floored r :=
  h.invariant (I := fun _ r => Floored r) (of_free rfl (.inl rfl)) step

end Floored

/-- If holes are not filled, none is ever given up. -/
theorem floor_eq_zero {device : DeviceId} {policy : Policy} {past : List Moment}
    (h : Run (begin device policy) past r) (hoff : policy.backfillOnGap = false) :
    r.floor = .zero := by
  rcases (Floored.after_run h).floor with he | ⟨hon, -⟩
  · exact he
  · rw [h.backfillOnGap, hoff] at hon
    cases hon

/-! ## Telling where the floor is -/

/-- The session has no records and no hole is out, and holes are filled at all. -/
structure Vacant (r : Reconciler) (s : Session) : Prop where
  current : r.journal.current = some s
  empty : s.store = .empty
  free : r.backfill = none
  on : r.backfillOnGap

/-- When the caller gives up, the log is complete and nothing else has changed. -/
theorem exists_cancelled (h : Vacant r s) (hst : r.state.isInProgress ∨ r.state.isComplete)
    (now : Instant) :
    ∃ a s', r.handle now ⟨r.device, .cancel⟩ = .ok a ∧ Vacant a.next s' ∧
      a.next.state.isComplete ∧ a.next.floor = r.floor ∧ a.next.device = r.device := by
  obtain ⟨⟨q, sent, notes⟩, ha, hstep⟩ := exists_react r now .cancel
  cases hstep with
  | ignored hquiet =>
    rw [Ignores] at hquiet
    split at hquiet
    · rw [h.current] at hquiet
      cases hquiet
    · next hrunning => exact ⟨_, s, ha, h, hst.resolve_left hrunning, rfl, rfl⟩
  | @cancelled _ s' hs' =>
    obtain rfl : s' = s := Option.some_inj.mp (hs'.symm.trans h.current)
    exact ⟨_, s'.finish, ha, ⟨rfl, h.empty, h.free, h.on⟩, rfl, rfl, rfl⟩
  | dropped _ hgap =>
    rw [h.free] at hgap
    cases hgap

/-- Two records with a hole between them, after whatever is out is given up. -/
def probe (now : Instant) (device : DeviceId) (x : Position) : List (Instant × Inbound) :=
  [(now, ⟨device, .cancel⟩), (now, ⟨device, .bulk ⟨x.prev, []⟩⟩),
    (now, ⟨device, .bulk ⟨x.next, []⟩⟩)]

/-- The store that holds just the two neighbours of a position. -/
def neighbours (x : Position) : Store := (Store.empty.insert ⟨x.prev, []⟩).insert ⟨x.next, []⟩

/-- The snapshot of a session with one record. -/
theorem status_of_single {x : Record} (h : s.store = Store.empty.insert x) :
    s.status = ⟨s.id, some x.position, some x.position, 1⟩ := by
  unfold Session.status
  rw [h]
  rfl

/-- One record leaves no hole. -/
theorem repairable?_of_single {x : Record} (h : s.store = Store.empty.insert x) :
    r.repairable? s.status = none := by
  have hdropped : s.status.hasDropped = false := by
    rw [status_of_single h]
    refine decide_eq_false ?_
    unfold Status.dropped
    split
    · next span hspan =>
      obtain ⟨rfl, -⟩ := Span.ofBounds?_eq_some.mp hspan
      show ¬ 0 < x.position.toNat + 1 - x.position.toNat - 1
      omega
    · exact Nat.lt_irrefl 0
  unfold repairable? nextGap?
  rw [hdropped]
  split <;> rfl

section Neighbours

variable {x : Position} (hpos : 1 ≤ x.toNat) (hlt : x.toNat < 4294967294)
include hpos hlt

theorem toNat_neighbours : x.prev.toNat + 1 = x.toNat ∧ x.next.toNat = x.toNat + 1 := by
  rw [Position.toNat_prev, Position.toNat_next]
  omega

theorem prev_ne_next : x.prev ≠ x.next := by
  obtain ⟨hprev, hnext⟩ := toNat_neighbours hpos hlt
  intro he
  have := congrArg Position.toNat he
  omega

theorem records_neighbours : (neighbours x).records = [⟨x.prev, []⟩, ⟨x.next, []⟩] := by
  obtain ⟨hprev, hnext⟩ := toNat_neighbours hpos hlt
  have hge : ¬ x.next < x.prev := by
    rw [Position.lt_iff]
    omega
  show (if x.next < x.prev then _ else if x.next = x.prev then _ else _) = _
  rw [if_neg hge, if_neg (prev_ne_next hpos hlt).symm]
  rfl

theorem mem_neighbours {p : Position} : p ∈ neighbours x ↔ p = x.prev ∨ p = x.next := by
  rw [Store.mem_iff, records_neighbours hpos hlt]
  simp [eq_comm]

/-- The snapshot of a session that holds the two neighbours. -/
theorem status_of_neighbours (h : s.store = neighbours x) :
    s.status = ⟨s.id, some x.prev, some x.next, 2⟩ := by
  unfold Session.status Store.lowest? Store.highest? Store.size
  rw [h, records_neighbours hpos hlt]
  rfl

theorem span?_of_neighbours (h : s.store = neighbours x) :
    s.status.span? = some ⟨x.prev, x.next⟩ := by
  obtain ⟨hprev, hnext⟩ := toNat_neighbours hpos hlt
  rw [status_of_neighbours hpos hlt h]
  refine Span.ofBounds?_eq_some.mpr ⟨rfl, ?_, Position.isSet_next x⟩
  rw [Position.le_iff]
  omega

theorem hasDropped_of_neighbours (h : s.store = neighbours x) : s.status.hasDropped := by
  obtain ⟨hprev, hnext⟩ := toNat_neighbours hpos hlt
  unfold Status.hasDropped Status.dropped
  rw [span?_of_neighbours hpos hlt h, status_of_neighbours hpos hlt h]
  refine decide_eq_true ?_
  show 0 < x.next.toNat + 1 - x.prev.toNat - 2
  omega

/-- Between the neighbours there is a hole, unless the floor lies above it. -/
theorem isSome_gap?_neighbours (floor : Position) :
    ((neighbours x).gap? (max x.prev floor) x.next).isSome ↔ floor.toNat ≤ x.toNat := by
  obtain ⟨hprev, hnext⟩ := toNat_neighbours hpos hlt
  have hfirst : (max x.prev floor).toNat = max x.prev.toNat floor.toNat := Position.toNat_max ..
  rw [Option.isSome_iff_ne_none, ne_eq, Store.gap?_eq_none_iff, not_or]
  constructor
  · rintro ⟨hbounds, hmissing⟩
    by_contra hfloor
    have hbounds := Decidable.not_not.mp hbounds
    have hle := Position.le_iff.mp hbounds.1
    -- the window is the upper neighbour alone, which is held
    refine hmissing fun p hp₁ hp₂ => (mem_neighbours hpos hlt).mpr (.inr (Position.ext ?_))
    rw [Position.le_iff] at hp₁ hp₂
    omega
  · intro hfloor
    have hle : (max x.prev floor) ≤ x := by
      rw [Position.le_iff]
      omega
    have hlast : x ≤ x.next := by
      rw [Position.le_iff]
      omega
    refine ⟨not_not_intro ⟨Nat.le_trans hle hlast, Position.isSet_next x⟩, fun hall => ?_⟩
    -- the position itself lies in the window, and it is not its own neighbour
    rcases (mem_neighbours hpos hlt).mp (hall x hle hlast) with he | he <;>
    · have := congrArg Position.toNat he
      omega

/-- The hole between the neighbours is to be filled unless it lies below the floor. -/
theorem repairable?_of_neighbours (hs : r.journal.current = some s) (hon : r.backfillOnGap)
    (h : s.store = neighbours x) :
    (r.repairable? s.status).isSome ↔ r.floor.toNat ≤ x.toNat := by
  rw [← isSome_gap?_neighbours hpos hlt r.floor, ← h]
  unfold repairable? nextGap? Journal.gap?
  rw [if_pos hon, if_pos (hasDropped_of_neighbours hpos hlt h), span?_of_neighbours hpos hlt h, hs]
  rfl

/-- With the second record the new state is sent, unless there is a hole to be filled, for which
the floor must not be above it. -/
theorem watch_probe (h : Vacant r s) (hst : r.state.isInProgress ∨ r.state.isComplete)
    (now : Instant) :
    ∃ e₁ e₂ sent f, r.watch (probe now r.device x) = [e₁, e₂, (.ok sent, f)] ∧
      (sent = [] ↔ r.floor.toNat ≤ x.toNat) := by
  obtain ⟨hprev, -⟩ := toNat_neighbours hpos hlt
  have hset : x.prev.IsSet := by
    rw [Position.isSet_iff]
    omega
  obtain ⟨a, s₁, ha, hvacant, hcomplete, hfloor, hdevice⟩ := exists_cancelled h hst now
  obtain ⟨b, hb, hbnext, -⟩ :=
    exists_added hvacant.current hcomplete hvacant.free now ⟨x.prev, []⟩
  -- the session and the reconciler after the lower neighbour
  generalize hs₂ : s₁.receiveBulk ⟨x.prev, []⟩ = s₂ at hbnext
  have hstore₂ : s₂.store = Store.empty.insert ⟨x.prev, []⟩ := by
    rw [← hs₂, Session.store_receiveBulk_of_isSet _ hset, hvacant.empty]
  have hbnext : b.next = { a.next.enter s₂ with state := .ofStatus s₂.status } := by
    rw [hbnext, refreshed, repairable?_of_single hstore₂]
    rfl
  have hbfree : b.next.backfill = none := by
    rw [hbnext]
    exact hvacant.free
  have hbon : b.next.backfillOnGap := by
    rw [hbnext]
    exact hvacant.on
  have hbfloor : b.next.floor = r.floor := by
    rw [hbnext]
    exact hfloor
  have hbdevice : b.next.device = r.device := by
    rw [hbnext]
    exact hdevice
  obtain ⟨c, hc, -, hcsent⟩ :=
    exists_added (r := b.next) (s := s₂) (by rw [hbnext]; rfl) (by rw [hbnext]; rfl) hbfree now
      ⟨x.next, []⟩
  -- and after the upper one
  generalize hs₃ : s₂.receiveBulk ⟨x.next, []⟩ = s₃ at hcsent
  have hstore₃ : s₃.store = neighbours x := by
    rw [← hs₃, Session.store_receiveBulk_of_isSet _ (Position.isSet_next x), hstore₂]
    rfl
  have hgap := repairable?_of_neighbours hpos hlt (current_enter b.next s₃) hbon hstore₃
  have hne : (b.next.enter s₃).state ≠ .ofStatus s₃.status := by
    rw [state_enter, hbnext, status_of_single hstore₂, status_of_neighbours hpos hlt hstore₃]
    intro he
    exact prev_ne_next hpos hlt (Option.some_inj.mp (UploadState.complete.inj he).2.1)
  refine ⟨(.ok a.sent, a.next.face), (.ok b.sent, b.next.face), c.sent, c.next.face, ?_, ?_⟩
  · rw [hdevice] at hb
    rw [hbdevice] at hc
    unfold probe
    rw [watch_of_ok ha, watch_of_ok hb, watch_of_ok hc]
    rfl
  · rw [hcsent, refreshSent_eq_nil_iff hne, hgap, floor_enter, hbfloor]

end Neighbours

/-- A floor is not above another one if no position of a hole lies between them. -/
theorem floor_le_of_forall {f f' : Position} (hle : f'.toNat = 0 ∨ 2 ≤ f'.toNat)
    (hset : f'.toNat ≤ 4294967294)
    (h : ∀ x : Position, 1 ≤ x.toNat → x.toNat < 4294967294 → f.toNat ≤ x.toNat →
      f'.toNat ≤ x.toNat) : f'.toNat ≤ f.toNat := by
  by_contra hlt
  -- the first position of a hole that is not below the lower floor
  have hbound : max f.toNat 1 < 4294967294 := by omega
  have hge := h ⟨max f.toNat 1, by omega⟩ (Nat.le_max_right ..) hbound (Nat.le_max_left ..)
  have hge : f'.toNat ≤ max f.toNat 1 := hge
  omega

end Reconciler

end Logbook
