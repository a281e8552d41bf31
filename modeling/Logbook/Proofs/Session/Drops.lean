import Logbook.Proofs.Guarded.Session
import Logbook.Proofs.Session.Accounts
import Logbook.Proofs.Session.Operations
import Logbook.Proofs.Store.Bounds
import Logbook.Proofs.Store.Counting

/-!
# What a session has lost

There are two ways to find out whether records were lost between the lowest and the highest held
position. A snapshot takes the number of records from the size of the span, on words of half the
size that the records are counted in; the search for a hole walks over the records. Both come to the
same, because a position has one record at most and the unset mark has none.

- `Session.Lacks`: how many positions of a span are not held, by the snapshot and by the search.
- `Session.lacks_of_bounded`: it is told right for the span of the snapshot.
- `Session.tells_what_is_lost`: so it is whatever was done to the session.
-/

namespace Logbook.Session

open Rehearsal Script

variable {s : Session} {span : Span}

/-- The span goes from the lowest to the highest held position, and the snapshot tells how many of
its positions are not held. -/
structure Lacks (s : Session) (span : Span) : Prop where
  span? : s.status.span? = some span
  lowest : s.status.lowest = some span.first
  highest : s.status.highest = some span.last
  /-- The number of records is that of the store, also when it is cut to the smaller word. -/
  count : s.status.count.toNat = s.store.size ∧ s.status.count.toNat % 4294967296 = s.store.size
  count_le : s.status.count.toNat ≤ span.size
  /-- The difference does not stop at zero. -/
  sum : s.status.count.toNat + s.status.dropped = span.size
  dropped : s.status.dropped = {p | p ∈ span ∧ p ∉ s.store}.ncard
  /-- It comes through on machine words. -/
  guarded : Guarded.dropped s.status = .ok s.status.dropped
  /-- There is a loss just when the search finds a hole. -/
  hasDropped : s.status.hasDropped ↔ ∃ gap, s.store.gap? span.first span.last = some gap

/-- A hole is found between the bounds just when not all of the span is held. -/
theorem exists_gap_iff (h : s.store.Bounded span) (hset : span.last.IsSet) :
    (∃ gap, s.store.gap? span.first span.last = some gap) ↔ ¬ s.store.Covers span := by
  have hbounds : span.first ≤ span.last ∧ span.last.IsSet := ⟨h.ordered, hset⟩
  rw [← Option.ne_none_iff_exists', Ne, Store.gap?_eq_none_iff,
    or_iff_right (not_not_intro hbounds)]
  exact not_congr ⟨fun hall p hp => hall p hp.1 hp.2, fun hcovers p hge hle => hcovers p ⟨hge, hle⟩⟩

/-- The snapshot tells what its span lacks, if the span ends at a place in the stream. -/
theorem lacks_of_bounded (h : s.store.Bounded span) (hset : span.last.IsSet) : s.Lacks span := by
  have hcount : s.status.count.toNat = s.store.size := h.toNat_size hset
  have hdropped := dropped_status h hset
  have hcard := h.card_missing
  have hsize := Span.size_le hset
  constructor
  case span? => exact span?_status h hset
  case lowest => exact h.bounds.1
  case highest => exact h.bounds.2
  case count => exact ⟨hcount, by omega⟩
  case count_le => omega
  case sum => omega
  case dropped => rw [hdropped, Store.ncard_missing]
  case guarded => exact Guarded.dropped_eq s.status
  case hasDropped => rw [hasDropped_status h hset, exists_gap_iff h hset]

/-- A session without records has neither a span nor a loss. -/
theorem nothing_lost_of_empty (h : s.store.size = 0) :
    s.status.span? = none ∧ s.status.dropped = 0 ∧ s.status.hasDropped = false := by
  have hspan : s.status.span? = none := by
    rw [Option.eq_none_iff_forall_ne_some]
    intro span hspan
    exact absurd h (bounded_of_span? hspan).1.size_pos.ne'
  have hdropped : s.status.dropped = 0 := by
    unfold Status.dropped
    rw [hspan]
  refine ⟨hspan, hdropped, ?_⟩
  rw [Status.hasDropped, hdropped]
  rfl

/-- **A snapshot tells what is lost**, whatever was done to the session. Without records there is
neither a span nor a loss. With records there is a span, which holds no fewer positions than there
are records, and the number that is told is that of the positions of the span that are not held; it
is not zero just when the search finds a hole. -/
theorem tells_what_is_lost (h : s.Reached) :
    (s.store.size = 0 →
      s.status.span? = none ∧ s.status.dropped = 0 ∧ s.status.hasDropped = false) ∧
    (0 < s.store.size → ∃ span, s.Lacks span) := by
  refine ⟨nothing_lost_of_empty, fun hpos => ?_⟩
  obtain ⟨x, hx⟩ := List.exists_mem_of_length_pos hpos
  obtain ⟨span, hspan, -, -⟩ := Store.exists_bounded (p := x.position) ⟨x, hx, rfl⟩
  exact ⟨span, lacks_of_bounded hspan (h.isSet _ hspan.last)⟩

/-- Without records nothing is lost, and between the records at 1 and 7 five positions are. -/
theorem lost_between_two_records :
    (begin Device.standard.info .standard).status.span? = none ∧ withTwoRecords.Reached ∧
      withTwoRecords.status.dropped = 5 ∧ withTwoRecords.Lacks (Script.span 1 7) := by
  obtain ⟨hnone, -, -⟩ := (tells_what_is_lost (.opened Device.standard.info .standard)).1 rfl
  have hreached : withTwoRecords.Reached :=
    .step (.receiveBulk _) (.step (.receiveBulk _) (.opened _ _) rfl) rfl
  obtain ⟨span, hlacks⟩ := (tells_what_is_lost hreached).2 (by decide)
  have hspan : withTwoRecords.status.span? = some (Script.span 1 7) := by decide
  obtain rfl : Script.span 1 7 = span := Option.some_inj.mp (hspan.symm.trans hlacks.span?)
  exact ⟨hnone, hreached, by decide, hlacks⟩

end Logbook.Session
