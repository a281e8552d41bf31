import Logbook.Proofs.Guarded.Session
import Logbook.Proofs.Store.Counting
import Logbook.Proofs.Wire.Positions
import Logbook.Rehearsal.Script

/-!
# Spans by where they come from

A span is made from two bounds or from one position, or it is read from a message. Whoever makes one
looks at the order of its bounds. The reader of a message does not, it only looks at each bound on
its own. So what was made is a range of positions, and what was read is one if its bounds happen to
be in order.

- `Span.IsRange`: a span is a range of at least one position, and its size is their number.
- `Span.isRange_iff`: whether it is one is a matter of its bounds.
- `Span.exists_ofBounds?_iff`, `Span.exists_read_iff`, `Span.exists_received_iff`: which spans are
  made from bounds, and which are read, alone or in a request.
- `Span.isRange_unless_read_out_of_order`: all of them.
-/

namespace Logbook.Span

open Rehearsal Script Wire

variable {s : Span}

/-! ## Ranges -/

/-- The span is a range of positions. -/
structure IsRange (s : Span) : Prop where
  ordered : s.first ≤ s.last
  le_last : s.last ≤ .last
  /-- The size is the number of positions. -/
  size_eq : s.size = {p : Position | p ∈ s}.ncard
  /-- It can be counted on machine words. -/
  counted : Guarded.size s = .ok s.size
  /-- There is at least one position. -/
  one_le_size : 1 ≤ s.size

/-- Whether a span is a range is a matter of its bounds. -/
theorem isRange_iff : s.IsRange ↔ s.Ordered ∧ s.last ≤ .last := by
  constructor
  · intro h
    exact ⟨h.ordered, h.le_last⟩
  · rintro ⟨hordered, hlast⟩
    exact ⟨hordered, hlast, s.ncard_positions.symm,
      Guarded.size_of_ordered hordered (Position.isSet_iff.mpr hlast), size_pos hordered⟩

/-- Between bounds that are out of order there is no position, and the difference of the bounds is
below zero. -/
theorem not_mem_of_not_ordered (h : ¬ s.Ordered) :
    (∀ p, p ∉ s) ∧ Guarded.size s = .error .underflow := by
  refine ⟨fun p hp => h (Nat.le_trans hp.1 hp.2), ?_⟩
  have hbelow : ¬ s.first.toNat ≤ s.last.toNat := h
  unfold Guarded.size Guarded.minus
  rw [if_neg hbelow]
  rfl

/-! ## Spans that are made -/

/-- Just the ranges can be made from bounds. -/
theorem exists_ofBounds?_iff : (∃ first last, ofBounds? first last = some s) ↔ s.IsRange := by
  rw [isRange_iff]
  constructor
  · rintro ⟨first, last, h⟩
    obtain ⟨rfl, hordered, hset⟩ := ofBounds?_eq_some.mp h
    exact ⟨hordered, Position.isSet_iff.mp hset⟩
  · rintro ⟨hordered, hlast⟩
    exact ⟨s.first, s.last, ofBounds?_eq_some.mpr ⟨rfl, hordered, Position.isSet_iff.mpr hlast⟩⟩

/-- The span of one position is a range, also that of the unset mark. -/
theorem isRange_single (p : Position) : (single p).IsRange := by
  refine isRange_iff.mpr ⟨Nat.le_refl _, ?_⟩
  show min p Position.last ≤ .last
  rw [Position.le_iff, Position.toNat_min]
  exact Nat.min_le_right _ _

/-! ## Spans that are read -/

/-- A span can be read if its bounds are set, whatever their order. -/
theorem exists_read_iff : (∃ v, read v = .ok s) ↔ s.first ≤ .last ∧ s.last ≤ .last := by
  constructor
  · rintro ⟨v, hv⟩
    obtain ⟨hfirst, hlast⟩ := allSet_span.mp (roundTrips_span.allSet v s hv)
    exact ⟨Position.isSet_iff.mp (allSet_position.mp hfirst),
      Position.isSet_iff.mp (allSet_position.mp hlast)⟩
  · rintro ⟨hfirst, hlast⟩
    exact ⟨write s, readsBack_span (Position.isSet_iff.mpr hfirst) (Position.isSet_iff.mpr hlast)⟩

/-- The same spans can be read in a request to a device. -/
theorem exists_received_iff (device : DeviceId) :
    (∃ v, read v = .ok (⟨device, .request s⟩ : Outbound)) ↔
      s.first ≤ .last ∧ s.last ≤ .last := by
  constructor
  · rintro ⟨v, hv⟩
    have hset : AllSet s := roundTrips_outbound.allSet v _ hv
    exact exists_read_iff.mp ⟨write s, roundTrips_span.readsBack s hset⟩
  · intro hlast
    obtain ⟨v, hv⟩ := exists_read_iff.mpr hlast
    exact ⟨write (⟨device, .request s⟩ : Outbound),
      readsBack_request device (roundTrips_span.again v s hv)⟩

/-! ## All spans -/

/-- **A span is a range unless it was read with its bounds out of order.** Just the ranges can be
made from two bounds, and the span of one position is one. Alone or in a request, just the spans can
be read that have no bound at the unset mark. Such a span is a range if its bounds are in order;
otherwise it has no position, and to count them ends the program. -/
theorem isRange_unless_read_out_of_order (s : Span) :
    ((∃ first last, ofBounds? first last = some s) ↔ s.IsRange) ∧
      (∀ p, (single p).IsRange) ∧
      ((∃ v, read v = .ok s) ↔ s.first ≤ .last ∧ s.last ≤ .last) ∧
      (∀ device, (∃ v, read v = .ok (⟨device, .request s⟩ : Outbound)) ↔
        s.first ≤ .last ∧ s.last ≤ .last) ∧
      (s.IsRange ↔ s.Ordered ∧ s.last ≤ .last) ∧
      (s.Ordered ∨ (∀ p, p ∉ s) ∧ Guarded.size s = .error .underflow) :=
  ⟨exists_ofBounds?_iff, isRange_single, exists_read_iff, exists_received_iff, isRange_iff,
    (Decidable.em s.Ordered).imp_right not_mem_of_not_ordered⟩

/-- A span from 5 to 3 is read, alone and in a request, and it is no range. -/
theorem reads_out_of_order :
    read (.object [("min", .int 5), ("max", .int 3)]) = .ok (Script.span 5 3) ∧
      read (alternative "IssueBulkRequest" [("device_id", .int 1),
        ("range", .object [("min", .int 5), ("max", .int 3)])]) =
          .ok (⟨⟨1⟩, .request (Script.span 5 3)⟩ : Outbound) ∧
      ¬ (Script.span 5 3).IsRange ∧ Guarded.size (Script.span 5 3) = .error .underflow := by
  have hdisordered : ¬ (Script.span 5 3).Ordered := by decide
  exact ⟨rfl, rfl, fun h => hdisordered h.ordered, (not_mem_of_not_ordered hdisordered).2⟩

end Logbook.Span
