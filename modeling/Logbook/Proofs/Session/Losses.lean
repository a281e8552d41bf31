import Logbook.Proofs.Session.Advance
import Logbook.Proofs.Store.Bounds
import Logbook.Proofs.Store.Counting
import Logbook.Rehearsal.Stream

/-!
# What a stream of records loses

A stream of cursor records goes forward in steps, and what it steps over is lost. A new session that
takes the records keeps each position that arrives, however often it does, and so it lacks just what
the stream lost.

- `Rehearsal.Stream.mem_lossesFrom`: what is lost lies between arrivals, and does not arrive.
- `Rehearsal.Stream.pairwise_arrivalsFrom`, `Rehearsal.Stream.pairwise_lossesFrom`: both ascend, and
  nothing is lost twice.
- `Session.kept_of_stream`: the session holds what arrives.
- `Session.Loses`: the session lacks what is lost.
- `Session.loses_what_is_dropped`: so it does, whatever the stream.
-/

namespace Logbook

namespace Rehearsal.Stream

/-! ## Arrivals and losses as numbers -/

variable {n m : ℕ} {steps : List ℕ}

theorem start_mem_arrivalsFrom (n : ℕ) (steps : List ℕ) : n ∈ arrivalsFrom n steps := by
  cases steps with
  | nil => exact List.mem_singleton_self n
  | cons step rest => exact List.mem_cons_self

/-- Nothing arrives from below the start. -/
theorem le_of_mem_arrivalsFrom (h : m ∈ arrivalsFrom n steps) : n ≤ m := by
  induction steps generalizing n with
  | nil => exact Nat.le_of_eq (List.mem_singleton.mp h).symm
  | cons step rest ih =>
    rcases List.mem_cons.mp h with rfl | h
    · exact Nat.le_refl m
    · exact Nat.le_trans (Nat.le_add_right n step) (ih h)

/-- A stream never goes back. -/
theorem pairwise_arrivalsFrom (n : ℕ) (steps : List ℕ) :
    (arrivalsFrom n steps).Pairwise (· ≤ ·) := by
  induction steps generalizing n with
  | nil => exact List.pairwise_singleton _ n
  | cons step rest ih =>
    refine List.pairwise_cons.mpr ⟨fun m hm => ?_, ih (n + step)⟩
    exact Nat.le_trans (Nat.le_add_right n step) (le_of_mem_arrivalsFrom hm)

/-- What is stepped over lies between the ends of the step. -/
theorem mem_range'_step {step : ℕ} : m ∈ List.range' (n + 1) (step - 1) ↔ n < m ∧ m < n + step := by
  rw [List.mem_range'_1]
  omega

/-- **What is lost lies between arrivals, and does not arrive.** -/
theorem mem_lossesFrom :
    m ∈ lossesFrom n steps ↔
      n ≤ m ∧ (∃ a ∈ arrivalsFrom n steps, m < a) ∧ m ∉ arrivalsFrom n steps := by
  induction steps generalizing n with
  | nil =>
    refine iff_of_false List.not_mem_nil ?_
    rintro ⟨hle, ⟨a, ha, hlt⟩, -⟩
    rw [List.mem_singleton.mp ha] at hlt
    omega
  | cons step rest ih =>
    rw [lossesFrom, List.mem_append, mem_range'_step, ih, arrivalsFrom, List.mem_cons]
    simp only [List.exists_mem_cons_iff, not_or]
    have hstart := start_mem_arrivalsFrom (n + step) rest
    -- below the first arrival after the step nothing else arrives
    by_cases hbelow : m < n + step
    · have hnot : m ∉ arrivalsFrom (n + step) rest := fun hm =>
        absurd (le_of_mem_arrivalsFrom hm) (Nat.not_le.mpr hbelow)
      constructor
      · rintro (⟨hlt, -⟩ | ⟨hle, -⟩)
        · exact ⟨Nat.le_of_lt hlt, .inr ⟨_, hstart, hbelow⟩, Nat.ne_of_gt hlt, hnot⟩
        · omega
      · rintro ⟨hle, -, hne, -⟩
        exact .inl ⟨Nat.lt_of_le_of_ne hle (Ne.symm hne), hbelow⟩
    · have hle : n + step ≤ m := Nat.not_lt.mp hbelow
      constructor
      · rintro (⟨-, hlt⟩ | ⟨-, hahead, hnot⟩)
        · exact absurd hlt hbelow
        · refine ⟨by omega, .inr hahead, ?_, hnot⟩
          rintro rfl
          -- a step of zero would have the start arrive again
          obtain rfl : step = 0 := by omega
          exact hnot hstart
      · rintro ⟨-, hlt | hahead, -, hnot⟩
        · omega
        · exact .inr ⟨hle, hahead, hnot⟩

/-- Losses are listed in ascending order. -/
theorem pairwise_lossesFrom (n : ℕ) (steps : List ℕ) : (lossesFrom n steps).Pairwise (· < ·) := by
  induction steps generalizing n with
  | nil => exact List.Pairwise.nil
  | cons step rest ih =>
    refine List.pairwise_append.mpr ⟨List.pairwise_lt_range', ih (n + step), ?_⟩
    intro m hm l hl
    exact Nat.lt_of_lt_of_le (mem_range'_step.mp hm).2 (mem_lossesFrom.mp hl).1

/-! ## Arrivals and losses as positions -/

variable {st : Stream} {p : Position}

theorem mem_positions : p ∈ st.positions ↔ p.toNat ∈ arrivalsFrom st.start st.steps :=
  Position.mem_filterMap_ofNat?

theorem mem_dropped : p ∈ st.dropped ↔ p.toNat ∈ lossesFrom st.start st.steps :=
  Position.mem_filterMap_ofNat?

theorem pairwise_positions (st : Stream) : st.positions.Pairwise (· ≤ ·) :=
  Position.pairwise_filterMap_ofNat? (pairwise_arrivalsFrom st.start st.steps)

theorem pairwise_dropped (st : Stream) : st.dropped.Pairwise (· < ·) :=
  Position.pairwise_filterMap_ofNat? (pairwise_lossesFrom st.start st.steps)

theorem nodup_dropped (st : Stream) : st.dropped.Nodup :=
  st.pairwise_dropped.imp fun h he => Nat.ne_of_lt h (congrArg Position.toNat he)

/-- All arrivals have a place in the stream of records. -/
def StaysBelow (st : Stream) : Prop :=
  ∀ n ∈ arrivalsFrom st.start st.steps, n < Position.unset.toNat

instance (st : Stream) : Decidable st.StaysBelow := by
  unfold StaysBelow
  infer_instance

theorem StaysBelow.isSet (h : st.StaysBelow) (hp : p ∈ st.positions) : p.IsSet := by
  have hlt : p.toNat < 4294967295 := h _ (mem_positions.mp hp)
  rw [Position.isSet_iff]
  omega

/-- The stream starts at a position. -/
theorem StaysBelow.exists_start (h : st.StaysBelow) : ∃ p ∈ st.positions, p.toNat = st.start := by
  have hlt : st.start < 4294967295 := h _ (start_mem_arrivalsFrom st.start st.steps)
  refine ⟨⟨st.start, by omega⟩, mem_positions.mpr (start_mem_arrivalsFrom _ _), rfl⟩

end Rehearsal.Stream

namespace Session

open Rehearsal Script

variable {st : Stream} {xs : List Record} {t : Session} {tolerance : Tolerance}

/-! ## A session that takes the stream -/

/-- The session holds what arrives. -/
theorem kept_of_stream (hbelow : st.StaysBelow) (hxs : xs.map (·.position) = st.positions)
    (h : Kept tolerance xs t) (p : Position) : p ∈ t.store ↔ p ∈ st.positions := by
  have hplaces : placesOf xs = st.positions := by
    rw [placesOf, hxs, List.filter_eq_self]
    exact fun p hp => decide_eq_true (hbelow.isSet hp)
  rw [h.held, hplaces, isRunningMaximum_iff_mem st.pairwise_positions]

/-- The session lacks what the stream loses. -/
structure Loses (st : Stream) (t : Session) : Prop where
  held : ∀ p, p ∈ t.store ↔ p ∈ st.positions
  /-- What is lost is what is missing of the span of the session. -/
  missing : ∃ span, t.status.span? = some span ∧ ∀ p, p ∈ st.dropped ↔ p ∈ span ∧ p ∉ t.store
  /-- It is listed in ascending order, each position once. -/
  ascending : st.dropped.Pairwise (· < ·)
  count : t.status.dropped = st.dropped.length

/-- What is lost is missing between the bounds of a session that holds what arrives. -/
theorem mem_dropped_iff {span : Span} (hheld : ∀ p, p ∈ t.store ↔ p ∈ st.positions)
    (hspan : t.store.Bounded span) (hbelow : st.StaysBelow) (p : Position) :
    p ∈ st.dropped ↔ p ∈ span ∧ p ∉ t.store := by
  obtain ⟨start, hstart, hnumber⟩ := hbelow.exists_start
  have hfirst : span.first.toNat = st.start := by
    have hle := (hspan.within start ((hheld start).mpr hstart)).1
    have hge := Stream.le_of_mem_arrivalsFrom
      (Stream.mem_positions.mp ((hheld _).mp hspan.first))
    rw [Position.le_iff] at hle
    omega
  have hlast : span.last.toNat ∈ Stream.arrivalsFrom st.start st.steps :=
    Stream.mem_positions.mp ((hheld _).mp hspan.last)
  rw [Stream.mem_dropped, Stream.mem_lossesFrom, hheld, Stream.mem_positions, Span.mem_iff, hfirst]
  constructor
  · rintro ⟨hle, ⟨a, ha, hlt⟩, hnot⟩
    -- what arrives is a position, and so the session holds it
    have habelow : a < 4294967295 := hbelow a ha
    have hain : (⟨a, by omega⟩ : Position) ∈ t.store :=
      (hheld _).mpr (Stream.mem_positions.mpr ha)
    have halast : a ≤ span.last.toNat := (hspan.within _ hain).2
    exact ⟨⟨hle, by omega⟩, hnot⟩
  · rintro ⟨⟨hle, hge⟩, hnot⟩
    refine ⟨hle, ⟨_, hlast, Nat.lt_of_le_of_ne hge fun he => hnot ?_⟩, hnot⟩
    rw [he]
    exact hlast

/-- **A new session lacks just what the stream loses**, whatever its records bring: it holds the
positions that arrive, and between its bounds those are missing that the stream lists as lost, once
each and in ascending order, as many as the snapshot tells. -/
theorem loses_what_is_dropped (st : Stream) (hbelow : st.StaysBelow) (info : SessionInfo)
    (tolerance : Tolerance) (xs : List Record) (hxs : xs.map (·.position) = st.positions) :
    Loses st (xs.foldl Session.receiveCursor (begin info tolerance)) := by
  have hkept := (Kept.nil info tolerance).foldl xs
  generalize xs.foldl Session.receiveCursor (begin info tolerance) = t at hkept
  have hheld := kept_of_stream hbelow hxs hkept
  obtain ⟨start, hstart, -⟩ := hbelow.exists_start
  obtain ⟨span, hspan, -⟩ := Store.exists_bounded ((hheld start).mpr hstart)
  have hset : span.last.IsSet := hbelow.isSet ((hheld _).mp hspan.last)
  have hlost := mem_dropped_iff hheld hspan hbelow
  refine ⟨hheld, ⟨span, span?_status hspan hset, hlost⟩, st.pairwise_dropped, ?_⟩
  rw [dropped_status hspan hset, Store.length_eq_card_missing st.nodup_dropped hlost]

/-- A stream that goes to the last position, where it arrives twice, and loses something before. -/
def toTheEnd : Stream := ⟨4294967289, [1, 0, 3, 1, 0]⟩

/-- Two positions are lost on the way. -/
theorem loses_two_on_the_way :
    toTheEnd.StaysBelow ∧ Position.last ∈ toTheEnd.positions ∧ toTheEnd.dropped.length = 2 ∧
      (toTheEnd.positions.map Device.record).map (·.position) = toTheEnd.positions ∧
      Loses toTheEnd ((toTheEnd.positions.map Device.record).foldl Session.receiveCursor
        (begin Device.standard.info .standard)) := by
  have hrecords : (toTheEnd.positions.map Device.record).map (·.position) = toTheEnd.positions := by
    decide
  exact ⟨by decide, by decide, by decide, hrecords,
    loses_what_is_dropped toTheEnd (by decide) _ _ _ hrecords⟩

end Session

end Logbook
