import Logbook.Proofs.Store.Missing
import Mathlib.Data.Set.Card

/-!
# Counting positions

The size of a span and the number of its missing positions are cardinalities of sets of numbers.
They count positions, because no two positions have the same number.

- `Position.ncard_eq_card`: a set of positions has as many members as the set of their numbers.
- `Span.ncard_positions`: the size of a span is the number of its positions.
- `Store.ncard_missing`: as many positions of a span are not held as are missing.
- `Position.length_eq_card`, `Store.length_eq_card_missing`: the same of positions in a list.
-/

namespace Logbook

theorem Position.toNat_injective : Function.Injective Position.toNat := fun _ _ => Position.ext

/-- A set of positions has as many members as the set of their numbers. -/
theorem Position.ncard_eq_card {ps : Set Position} {ns : Finset ℕ}
    (hmem : ∀ p : Position, p.toNat ∈ ns ↔ p ∈ ps)
    (hnumbers : ∀ n ∈ ns, ∃ p : Position, p.toNat = n) : ps.ncard = ns.card := by
  have himage : Position.toNat '' ps = ↑ns := by
    ext n
    constructor
    · rintro ⟨p, hp, rfl⟩
      exact (hmem p).mpr hp
    · intro hn
      obtain ⟨p, rfl⟩ := hnumbers n hn
      exact ⟨p, (hmem p).mp hn, rfl⟩
  rw [← Set.ncard_image_of_injective ps Position.toNat_injective, himage, Set.ncard_coe_finset]

/-- A list of positions without repetition is as long as the set of their numbers. -/
theorem Position.length_eq_card {ps : List Position} {ns : Finset ℕ} (hnodup : ps.Nodup)
    (hmem : ∀ p : Position, p.toNat ∈ ns ↔ p ∈ ps)
    (hnumbers : ∀ n ∈ ns, ∃ p : Position, p.toNat = n) : ps.length = ns.card := by
  have hset : {p | p ∈ ps}.ncard = ns.card := ncard_eq_card hmem hnumbers
  rw [← hset, ← List.coe_toFinset, Set.ncard_coe_finset, List.toFinset_card_of_nodup hnodup]

/-- The size of a span is the number of its positions. -/
theorem Span.ncard_positions (span : Span) : {p : Position | p ∈ span}.ncard = span.size := by
  rw [← card_numbers]
  refine Position.ncard_eq_card (fun p => mem_numbers) fun n hn => ?_
  obtain ⟨p, -, hp⟩ := exists_of_mem_numbers hn
  exact ⟨p, hp⟩

/-- As many positions of a span are not held as are missing. -/
theorem Store.ncard_missing (s : Store) (span : Span) :
    {p : Position | p ∈ span ∧ p ∉ s}.ncard = (s.missing span).card := by
  refine Position.ncard_eq_card (fun p => mem_missing) fun n hn => ?_
  obtain ⟨p, -, -, hp⟩ := exists_of_mem_missing hn
  exact ⟨p, hp⟩

/-- A list of the positions that are missing is as long as they are many. -/
theorem Store.length_eq_card_missing {s : Store} {span : Span} {ps : List Position}
    (hnodup : ps.Nodup) (hmem : ∀ p, p ∈ ps ↔ p ∈ span ∧ p ∉ s) :
    ps.length = (s.missing span).card := by
  refine Position.length_eq_card hnodup (fun p => mem_missing.trans (hmem p).symm) fun n hn => ?_
  obtain ⟨p, -, -, hp⟩ := exists_of_mem_missing hn
  exact ⟨p, hp⟩

end Logbook
