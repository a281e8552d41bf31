import Logbook.Store
import Mathlib.Data.Finset.Card
import Mathlib.Order.Interval.Finset.Nat

/-!
# What a store lacks of a span

Requests are accounted for in numbers, but what they are about is a set: the positions of a span
that have no record. Both are tied together here.

- `Span.numbers`, `Store.numbers`: the positions of a span and of a store, as finite sets of
  numbers, so that counting is cardinality.
- `Store.missing`: the positions of a span that are not held, and `Store.Covers`, that there are
  none.
- `Store.missing_insert`: an insertion takes away the position of its record and nothing else.
- `Store.size_sub_window`: the size of a span less its records in the store is the number of
  missing positions; this is the count that a request begins with.
-/

namespace Logbook

namespace Span

/-- The positions of a span as numbers. -/
def numbers (span : Span) : Finset ℕ := Finset.Icc span.first.toNat span.last.toNat

theorem mem_numbers {span : Span} {p : Position} : p.toNat ∈ span.numbers ↔ p ∈ span := by
  rw [numbers, Finset.mem_Icc, mem_iff]

theorem card_numbers (span : Span) : span.numbers.card = span.size :=
  Nat.card_Icc ..

/-- The size of a span whose upper bound is set fits into a counter. -/
theorem size_le {span : Span} (hset : span.last.IsSet) : span.size ≤ 4294967295 := by
  have hlast := Position.isSet_iff.mp hset
  unfold size
  omega

/-- A number of a span is the number of a position. -/
theorem exists_of_mem_numbers {span : Span} {n : ℕ} (h : n ∈ span.numbers) :
    ∃ p ∈ span, p.toNat = n := by
  have hn := Finset.mem_Icc.mp h
  exact ⟨⟨n, Nat.lt_of_le_of_lt hn.2 span.last.toNat_lt⟩, hn, rfl⟩

end Span

namespace Store

/-- The held positions as numbers. -/
def numbers (s : Store) : Finset ℕ := (s.records.map (·.position.toNat)).toFinset

theorem mem_numbers {s : Store} {p : Position} : p.toNat ∈ s.numbers ↔ p ∈ s := by
  rw [numbers, List.mem_toFinset, List.mem_map, mem_iff]
  constructor
  · rintro ⟨r, hr, he⟩
    exact ⟨r, hr, Position.ext he⟩
  · rintro ⟨r, hr, rfl⟩
    exact ⟨r, hr, rfl⟩

/-- A held number is the number of a held position. -/
theorem exists_of_mem_numbers {s : Store} {n : ℕ} (h : n ∈ s.numbers) : ∃ p ∈ s, p.toNat = n := by
  obtain ⟨r, hr, rfl⟩ := List.mem_map.mp (List.mem_toFinset.mp h)
  exact ⟨r.position, ⟨r, hr, rfl⟩, rfl⟩

@[simp] theorem not_mem_empty (p : Position) : p ∉ empty := by
  rintro ⟨r, hr, -⟩
  exact absurd hr List.not_mem_nil

theorem numbers_insert (s : Store) (r : Record) :
    (s.insert r).numbers = Insert.insert r.position.toNat s.numbers := by
  ext n
  rw [Finset.mem_insert]
  constructor
  · intro h
    obtain ⟨p, hp, rfl⟩ := exists_of_mem_numbers h
    rcases mem_insert.mp hp with rfl | hp
    · exact .inl rfl
    · exact .inr (mem_numbers.mpr hp)
  · rintro (rfl | h)
    · exact mem_numbers.mpr (mem_insert.mpr (.inl rfl))
    · obtain ⟨p, hp, rfl⟩ := exists_of_mem_numbers h
      exact mem_numbers.mpr (mem_insert.mpr (.inr hp))

/-! ## The missing positions of a span -/

/-- The positions of a span that are not held, as numbers. -/
def missing (s : Store) (span : Span) : Finset ℕ := span.numbers \ s.numbers

/-- Every position of the span is held. -/
def Covers (s : Store) (span : Span) : Prop := ∀ p ∈ span, p ∈ s

theorem mem_missing {s : Store} {span : Span} {p : Position} :
    p.toNat ∈ s.missing span ↔ p ∈ span ∧ p ∉ s := by
  rw [missing, Finset.mem_sdiff, Span.mem_numbers, mem_numbers]

/-- A missing number is the number of a missing position. -/
theorem exists_of_mem_missing {s : Store} {span : Span} {n : ℕ} (h : n ∈ s.missing span) :
    ∃ p ∈ span, p ∉ s ∧ p.toNat = n := by
  obtain ⟨p, -, rfl⟩ := Span.exists_of_mem_numbers (Finset.mem_sdiff.mp h).1
  obtain ⟨hp, hnot⟩ := mem_missing.mp h
  exact ⟨p, hp, hnot, rfl⟩

theorem covers_iff {s : Store} {span : Span} : s.Covers span ↔ s.missing span = ∅ := by
  constructor
  · intro h
    apply Finset.eq_empty_of_forall_notMem
    intro n hn
    obtain ⟨p, hp, hnot, -⟩ := exists_of_mem_missing hn
    exact hnot (h p hp)
  · intro h p hp
    by_contra hs
    have hm : p.toNat ∈ s.missing span := mem_missing.mpr ⟨hp, hs⟩
    rw [h] at hm
    exact absurd hm (Finset.notMem_empty _)

instance (s : Store) (span : Span) : Decidable (s.Covers span) :=
  decidable_of_iff _ covers_iff.symm

/-- What is held stays held when a record is stored. -/
theorem Covers.insert {s : Store} {span : Span} (h : s.Covers span) (r : Record) :
    (s.insert r).Covers span := by
  intro p hp
  exact mem_insert.mpr (.inr (h p hp))

/-- If none of a span is held, all of it is missing. -/
theorem missing_of_disjoint {s : Store} {span : Span} (h : ∀ p ∈ span, p ∉ s) :
    s.missing span = span.numbers := by
  refine Finset.sdiff_eq_self_of_disjoint (Finset.disjoint_left.mpr ?_)
  intro n hn hs
  obtain ⟨p, hp, rfl⟩ := Span.exists_of_mem_numbers hn
  exact h p hp (mem_numbers.mp hs)

/-- An insertion takes the position of its record off the missing ones. -/
theorem missing_insert (s : Store) (r : Record) (span : Span) :
    (s.insert r).missing span = (s.missing span).erase r.position.toNat := by
  rw [missing, numbers_insert, missing, Finset.sdiff_insert]

/-- An insertion leaves one missing position less if it fills one. -/
theorem card_missing_insert (s : Store) (r : Record) (span : Span) :
    ((s.insert r).missing span).card + (if r.position ∈ span ∧ r.position ∉ s then 1 else 0) =
      (s.missing span).card := by
  rw [missing_insert]
  split
  · next h => exact Finset.card_erase_add_one (mem_missing.mpr h)
  · next h => rw [Finset.erase_eq_of_notMem fun hm => h (mem_missing.mp hm), Nat.add_zero]

/-! ## Counting records -/

/-- An ascending list has no position twice. -/
theorem nodup_positions (s : Store) : (s.records.map (·.position.toNat)).Nodup := by
  rw [List.nodup_iff_pairwise_ne, List.pairwise_map]
  exact s.ascending.imp fun h => Nat.ne_of_lt h

theorem card_numbers (s : Store) : s.numbers.card = s.size := by
  rw [numbers, List.toFinset_card_of_nodup s.nodup_positions, List.length_map, size]

/-- A window holds one record for each held position of its span. -/
theorem length_window (s : Store) (span : Span) (h : span.first ≤ span.last) :
    (s.window span.first span.last h).length = (span.numbers ∩ s.numbers).card := by
  have hnodup : ((s.window span.first span.last h).map (·.position.toNat)).Nodup :=
    s.nodup_positions.sublist (List.filter_sublist.map _)
  rw [← List.length_map, ← List.toFinset_card_of_nodup hnodup]
  -- no position is there twice, so the records are as many as their positions
  congr 1
  ext n
  rw [List.mem_toFinset, List.mem_map, Finset.mem_inter]
  constructor
  · rintro ⟨r, hr, rfl⟩
    obtain ⟨hr, hwithin⟩ := List.mem_filter.mp hr
    exact ⟨Span.mem_numbers.mpr (of_decide_eq_true hwithin), mem_numbers.mpr ⟨r, hr, rfl⟩⟩
  · rintro ⟨hspan, hs⟩
    obtain ⟨p, ⟨r, hr, rfl⟩, rfl⟩ := exists_of_mem_numbers hs
    exact ⟨r, List.mem_filter.mpr ⟨hr, decide_eq_true (Span.mem_numbers.mp hspan)⟩, rfl⟩

/-- What a request expects: the size of its span less the records that are held in it. -/
theorem size_sub_window (s : Store) (span : Span) (h : span.first ≤ span.last) :
    span.size - (s.window span.first span.last h).length = (s.missing span).card := by
  have hsum := Finset.card_sdiff_add_card_inter span.numbers s.numbers
  rw [length_window, ← Span.card_numbers, missing]
  omega

theorem card_missing_le (s : Store) (span : Span) : (s.missing span).card ≤ span.size := by
  rw [← Span.card_numbers]
  exact Finset.card_le_card Finset.sdiff_subset

end Store

end Logbook
