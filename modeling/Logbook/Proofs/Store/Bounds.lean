import Logbook.Message
import Logbook.Session.Basic
import Logbook.Proofs.Store.FirstGap
import Logbook.Proofs.Store.Missing

/-!
# The bounds of a store

A snapshot of a session gives the lowest and the highest held position and the number of records.
Whether a position between the bounds is missing is read off these three.

- `Store.Bounded`: the span from the lowest to the highest held position.
- `Store.exists_bounded`: every store that holds something has one.
- `Store.lowest?_eq_some_iff`, `Store.highest?_eq_some_iff`, `Store.size_congr`: the bounds and the
  number of records depend on the held positions only; so does the snapshot,
  `Session.status_congr`.
- `Session.span?_status`: it is the span of the snapshot.
- `Session.hasDropped_status`: the snapshot shows a loss exactly when the span is not covered.
-/

namespace Logbook

namespace Store

variable {s : Store} {span : Span} {p : Position}

/-- The span goes from the lowest to the highest held position. -/
structure Bounded (s : Store) (span : Span) : Prop where
  first : span.first ∈ s
  last : span.last ∈ s
  within : ∀ p ∈ s, p ∈ span

/-! ## The ends of the list -/

/-- The head of the list is the lowest held position. -/
theorem lowest?_eq_some (h : s.lowest? = some p) : p ∈ s ∧ ∀ q ∈ s, p ≤ q := by
  obtain ⟨r, hr, rfl⟩ := Option.map_eq_some_iff.mp h
  obtain ⟨rest, hrest⟩ := List.head?_eq_some_iff.mp hr
  have hpair := s.ascending
  rw [hrest] at hpair
  refine ⟨⟨r, List.mem_of_mem_head? hr, rfl⟩, ?_⟩
  rintro q ⟨x, hx, rfl⟩
  rw [hrest] at hx
  exact Record.head_le hpair hx

/-- The end of the list is the highest held position. -/
theorem highest?_eq_some (h : s.highest? = some p) : p ∈ s ∧ ∀ q ∈ s, q ≤ p := by
  obtain ⟨r, hr, rfl⟩ := Option.map_eq_some_iff.mp h
  obtain ⟨front, hfront⟩ := List.getLast?_eq_some_iff.mp hr
  have hpair := s.ascending
  rw [hfront] at hpair
  refine ⟨⟨r, List.mem_of_mem_getLast? hr, rfl⟩, ?_⟩
  rintro q ⟨x, hx, rfl⟩
  rw [hfront] at hx
  rcases List.mem_append.mp hx with hx | hx
  · exact Nat.le_of_lt ((List.pairwise_append.mp hpair).2.2 x hx r (List.mem_singleton_self r))
  · rw [List.mem_singleton.mp hx]
    exact Nat.le_refl _

/-- A store that holds something has bounds. -/
theorem exists_bounded (h : p ∈ s) :
    ∃ span, s.Bounded span ∧ s.lowest? = some span.first ∧ s.highest? = some span.last := by
  obtain ⟨r, hr, -⟩ := h
  have hne : s.records ≠ [] := List.ne_nil_of_mem hr
  have hlowest : s.lowest? = some (s.records.head hne).position := by
    rw [lowest?, List.head?_eq_some_head hne]
    rfl
  have hhighest : s.highest? = some (s.records.getLast hne).position := by
    rw [highest?, List.getLast?_eq_some_getLast hne]
    rfl
  obtain ⟨hfirst, hle⟩ := lowest?_eq_some hlowest
  obtain ⟨hlast, hge⟩ := highest?_eq_some hhighest
  exact ⟨⟨_, _⟩, ⟨hfirst, hlast, fun p hp => ⟨hle p hp, hge p hp⟩⟩, hlowest, hhighest⟩

namespace Bounded

/-- A store has one pair of bounds only. -/
theorem unique {span' : Span} (h : s.Bounded span) (h' : s.Bounded span') : span = span' := by
  have hfirst := Nat.le_antisymm (h.within _ h'.first).1 (h'.within _ h.first).1
  have hlast := Nat.le_antisymm (h'.within _ h.last).2 (h.within _ h'.last).2
  exact Span.ext (Position.ext hfirst) (Position.ext hlast)

theorem bounds (h : s.Bounded span) :
    s.lowest? = some span.first ∧ s.highest? = some span.last := by
  obtain ⟨span', hspan', hlowest, hhighest⟩ := exists_bounded h.first
  rw [h.unique hspan']
  exact ⟨hlowest, hhighest⟩

theorem ordered (h : s.Bounded span) : span.Ordered := (h.within _ h.first).2

/-- The records and the missing positions make up the span. -/
theorem card_missing (h : s.Bounded span) : (s.missing span).card + s.size = span.size := by
  have hsub : s.numbers ⊆ span.numbers := by
    intro n hn
    obtain ⟨p, hp, rfl⟩ := exists_of_mem_numbers hn
    exact Span.mem_numbers.mpr (h.within p hp)
  rw [← Span.card_numbers, ← card_numbers]
  exact Finset.card_sdiff_add_card_eq_card hsub

theorem size_pos (h : s.Bounded span) : 0 < s.size := by
  obtain ⟨r, hr, -⟩ := h.first
  exact List.length_pos_of_mem hr

/-- There are no more records than fit into the count of a snapshot. -/
theorem toNat_size (h : s.Bounded span) (hset : span.last.IsSet) :
    (UInt64.ofNat s.size).toNat = s.size := by
  have hcard := h.card_missing
  have hsize := Span.size_le hset
  rw [UInt64.toNat_ofNat']
  omega

end Bounded

/-! ## Stores that hold the same -/

theorem lowest?_eq_some_iff : s.lowest? = some p ↔ p ∈ s ∧ ∀ q ∈ s, p ≤ q := by
  refine ⟨lowest?_eq_some, ?_⟩
  rintro ⟨hp, hle⟩
  obtain ⟨span, hspan, hlowest, -⟩ := exists_bounded hp
  rw [hlowest, Position.ext (Nat.le_antisymm (hspan.within p hp).1 (hle _ hspan.first))]

theorem highest?_eq_some_iff : s.highest? = some p ↔ p ∈ s ∧ ∀ q ∈ s, q ≤ p := by
  refine ⟨highest?_eq_some, ?_⟩
  rintro ⟨hp, hge⟩
  obtain ⟨span, hspan, -, hhighest⟩ := exists_bounded hp
  rw [hhighest, Position.ext (Nat.le_antisymm (hge _ hspan.last) (hspan.within p hp).2)]

theorem size_congr {s t : Store} (h : ∀ p, p ∈ s ↔ p ∈ t) : s.size = t.size := by
  have hnumbers : s.numbers = t.numbers := by
    ext n
    constructor
    · intro hn
      obtain ⟨p, hp, rfl⟩ := exists_of_mem_numbers hn
      exact mem_numbers.mpr ((h p).mp hp)
    · intro hn
      obtain ⟨p, hp, rfl⟩ := exists_of_mem_numbers hn
      exact mem_numbers.mpr ((h p).mpr hp)
  rw [← card_numbers, hnumbers, card_numbers]

end Store

/-! ## Snapshots -/

namespace Session

variable {s : Session} {span : Span}

/-- A snapshot tells nothing but which positions of which session are held. -/
theorem status_congr {t : Session} (hid : s.id = t.id) (h : ∀ p, p ∈ s.store ↔ p ∈ t.store) :
    s.status = t.status := by
  apply Status.ext
  · exact hid
  · apply Option.ext
    intro p
    show s.store.lowest? = some p ↔ t.store.lowest? = some p
    simp only [Store.lowest?_eq_some_iff, h]
  · apply Option.ext
    intro p
    show s.store.highest? = some p ↔ t.store.highest? = some p
    simp only [Store.highest?_eq_some_iff, h]
  · exact congrArg UInt64.ofNat (Store.size_congr h)

/-- The span of a snapshot is that of the store. -/
theorem span?_status (h : s.store.Bounded span) (hset : span.last.IsSet) :
    s.status.span? = some span := by
  have hlowest : s.status.lowest = some span.first := h.bounds.1
  have hhighest : s.status.highest = some span.last := h.bounds.2
  unfold Status.span?
  rw [hlowest, hhighest]
  exact Span.ofBounds?_eq_some.mpr ⟨rfl, h.ordered, hset⟩

/-- The span of a snapshot goes from bound to bound. -/
theorem bounded_of_span? (h : s.status.span? = some span) :
    s.store.Bounded span ∧ span.last.IsSet := by
  unfold Status.span? at h
  split at h
  · next lowest highest hlowest hhighest =>
    obtain ⟨rfl, -, hset⟩ := Span.ofBounds?_eq_some.mp h
    obtain ⟨hfirst, hle⟩ := Store.lowest?_eq_some hlowest
    obtain ⟨hlast, hge⟩ := Store.highest?_eq_some hhighest
    exact ⟨⟨hfirst, hlast, fun p hp => ⟨hle p hp, hge p hp⟩⟩, hset⟩
  · cases h

/-- The complete state of a session tells its bounds and how many positions of them it holds. -/
theorem ofStatus_status (h : s.store.Bounded span) :
    UploadState.ofStatus s.status =
      .complete (some span.first) (some span.last) (UInt64.ofNat s.store.size) := by
  obtain ⟨hlowest, hhighest⟩ := h.bounds
  show UploadState.complete s.store.lowest? s.store.highest? _ = _
  rw [hlowest, hhighest]
  rfl

/-- The number of records is below the modulus that it is taken by. -/
theorem dropped_status (h : s.store.Bounded span) (hset : span.last.IsSet) :
    s.status.dropped = (s.store.missing span).card := by
  have hcard := h.card_missing
  have hsize := Span.size_le hset
  unfold Status.dropped
  rw [span?_status h hset]
  show span.size - (UInt64.ofNat s.store.size).toNat % 4294967296 = _
  rw [h.toNat_size hset]
  omega

/-- A snapshot shows a loss exactly when a position between the bounds is missing. -/
theorem hasDropped_status (h : s.store.Bounded span) (hset : span.last.IsSet) :
    s.status.hasDropped ↔ ¬ s.store.Covers span := by
  rw [Status.hasDropped, dropped_status h hset, decide_eq_true_iff, Store.covers_iff,
    Finset.card_pos, Finset.nonempty_iff_ne_empty]

end Session

end Logbook
