import Logbook.Proofs.Store.Missing
import Mathlib.Data.List.Induction
import Mathlib.Data.List.Perm.Basic

/-!
# Records in a store and on their way

A store is nothing but what is found at its positions. Records that come one after another bring
places in the stream, some of them more than once, and the unset mark, which is no place.

- `Store.get?_eq_some_iff`, `Store.ext_get?`: the records of a store are what is found at their
  positions, and two stores where the same is found are the same.
- `recordsAt`, `placesOf`: the records that come for one position, and the places that come.
- `highest?`: the highest place that comes.
- `Rearranges`: the same records come, and those for one position in the same order.
- `IsRunningMaximum`: a position that is above all that came before it.
-/

namespace Logbook

namespace Store

variable {s t : Store} {p : Position} {x : Record}

/-- A store has one record at most for each position. -/
theorem get?_eq_some_iff : s.get? p = some x ↔ x ∈ s.records ∧ x.position = p := by
  constructor
  · intro h
    exact ⟨List.mem_of_find?_eq_some h, position_of_get? h⟩
  · rintro ⟨hx, rfl⟩
    obtain ⟨y, hy⟩ : ∃ y, s.get? x.position = some y := by
      rw [← Option.ne_none_iff_exists', ne_eq, get?_eq_none_iff, not_not]
      exact ⟨x, hx, rfl⟩
    have hposition := position_of_get? hy
    have hsame : y = x := List.inj_on_of_nodup_map s.nodup_positions
      (List.mem_of_find?_eq_some hy) hx (congrArg Position.toNat hposition)
    rw [hy, hsame]

/-- The records after an insertion. -/
theorem mem_records_insert {y : Record} (h : y ∈ (s.insert x).records) :
    y = x ∨ y ∈ s.records := Record.mem_of_mem_insertInto h

/-- Stores where the same is found are the same, because an ascending list is told by its
members. -/
theorem ext_get? (h : ∀ p, s.get? p = t.get? p) : s = t := by
  have hirrefl : Std.Irrefl fun a b : Record => a.position < b.position :=
    ⟨fun a => Nat.lt_irrefl a.position.toNat⟩
  have hantisymm : Std.Antisymm fun a b : Record => a.position < b.position :=
    ⟨fun _ _ hab hba => absurd hab (Nat.lt_asymm hba)⟩
  have hmem (x : Record) : x ∈ s.records ↔ x ∈ t.records := by
    have hs := get?_eq_some_iff (s := s) (p := x.position) (x := x)
    have ht := get?_eq_some_iff (s := t) (p := x.position) (x := x)
    rw [and_iff_left rfl] at hs ht
    rw [← hs, ← ht, h]
  have hrecords : s.records = t.records :=
    List.Pairwise.eq_of_mem_iff s.ascending t.ascending hmem
  cases s
  cases t
  congr

end Store

/-! ## Records on their way -/

variable {xs ys : List Record} {x : Record} {p q : Position}

/-- The records that come for a position, in the order in which they come. -/
def recordsAt (p : Position) (xs : List Record) : List Record := xs.filter (·.position = p)

/-- The places in the stream for which records come, in the order in which they come. -/
def placesOf (xs : List Record) : List Position := (xs.map (·.position)).filter (·.IsSet)

/-- The highest place for which a record comes. -/
def highest? (xs : List Record) : Option Position := (placesOf xs).max?

/-- One list is a permutation of the other, in which the records for one position come in the same
order. -/
structure Rearranges (xs ys : List Record) : Prop where
  perm : xs.Perm ys
  order : ∀ p, recordsAt p xs = recordsAt p ys

theorem mem_placesOf : p ∈ placesOf xs ↔ (∃ x ∈ xs, x.position = p) ∧ p.IsSet := by
  rw [placesOf, List.mem_filter, List.mem_map, decide_eq_true_iff]

theorem placesOf_eq_nil_iff : placesOf xs = [] ↔ ∀ x ∈ xs, ¬ x.position.IsSet := by
  simp [placesOf, List.filter_eq_nil_iff]

theorem recordsAt_eq_nil_iff : recordsAt p xs = [] ↔ ∀ x ∈ xs, x.position ≠ p := by
  simp [recordsAt, List.filter_eq_nil_iff]

theorem placesOf_concat_of_isSet (xs : List Record) (h : x.position.IsSet) :
    placesOf (xs ++ [x]) = placesOf xs ++ [x.position] := by
  simp [placesOf, h]

theorem placesOf_concat_of_unset (xs : List Record) (h : ¬ x.position.IsSet) :
    placesOf (xs ++ [x]) = placesOf xs := by
  simp [placesOf, h]

theorem recordsAt_concat_self (xs : List Record) (x : Record) :
    recordsAt x.position (xs ++ [x]) = recordsAt x.position xs ++ [x] := by
  simp [recordsAt]

theorem recordsAt_concat_of_ne (xs : List Record) (h : x.position ≠ p) :
    recordsAt p (xs ++ [x]) = recordsAt p xs := by
  simp [recordsAt, h]

/-- The first record for a place stays the first one. -/
theorem head?_recordsAt_concat (hp : p ∈ placesOf xs) (x : Record) :
    (recordsAt p (xs ++ [x])).head? = (recordsAt p xs).head? := by
  have hcame : recordsAt p xs ≠ [] := by
    obtain ⟨⟨y, hy, hsame⟩, -⟩ := mem_placesOf.mp hp
    exact fun hnone => recordsAt_eq_nil_iff.mp hnone y hy hsame
  rw [recordsAt, List.filter_append]
  exact List.head?_append_of_ne_nil _ hcame

/-- The highest place is one of the places, and none is above it. -/
theorem highest?_eq_some_iff :
    highest? xs = some p ↔ p ∈ placesOf xs ∧ ∀ q ∈ placesOf xs, q ≤ p := List.max?_eq_some_iff

/-- There is a highest place as soon as there is any. -/
theorem exists_highest? (h : p ∈ placesOf xs) : ∃ q, highest? xs = some q := by
  rw [← Option.isSome_iff_exists, Option.isSome_iff_ne_none, ne_eq, highest?, List.max?_eq_none_iff]
  exact List.ne_nil_of_mem h

/-- The first place that comes is the highest one. -/
theorem highest?_concat_of_nil (hnone : placesOf xs = []) (h : x.position.IsSet) :
    highest? (xs ++ [x]) = some x.position := by
  rw [highest?, placesOf_concat_of_isSet xs h, hnone]
  rfl

/-- Every other one is the highest if it is above all that came before. -/
theorem highest?_concat (hp : highest? xs = some p) (h : x.position.IsSet) :
    highest? (xs ++ [x]) = some (max p x.position) := by
  obtain ⟨hmem, hle⟩ := highest?_eq_some_iff.mp hp
  rw [highest?_eq_some_iff, placesOf_concat_of_isSet xs h]
  constructor
  · rcases Std.MaxEqOr.max_eq_or p x.position with hmax | hmax
    · rw [hmax]
      exact List.mem_append_left _ hmem
    · rw [hmax]
      exact List.mem_append_right _ (List.mem_singleton_self _)
  · intro q hq
    rw [Position.le_iff, Position.toNat_max]
    rcases List.mem_append.mp hq with hq | hq
    · have hbelow := Position.le_iff.mp (hle q hq)
      omega
    · rw [List.mem_singleton.mp hq]
      exact Nat.le_max_right _ _

/-- The same places come when the records are rearranged. -/
theorem Rearranges.perm_placesOf (h : Rearranges xs ys) : (placesOf xs).Perm (placesOf ys) :=
  (h.perm.map _).filter _

theorem Rearranges.highest?_eq (h : Rearranges xs ys) : highest? xs = highest? ys := by
  apply Option.ext
  intro p
  simp only [highest?_eq_some_iff, h.perm_placesOf.mem_iff]

/-! ## Running maxima -/

/-- The position stands in the list at a place where all before it is below. -/
def IsRunningMaximum (ps : List Position) (p : Position) : Prop :=
  ∃ before, before ++ [p] <+: ps ∧ ∀ q ∈ before, q < p

variable {ps : List Position}

theorem IsRunningMaximum.mem (h : IsRunningMaximum ps p) : p ∈ ps := by
  obtain ⟨before, hprefix, -⟩ := h
  exact hprefix.subset (List.mem_append_right _ (List.mem_singleton_self p))

/-- One position more adds itself to the running maxima if it is above all others. -/
theorem isRunningMaximum_concat :
    IsRunningMaximum (ps ++ [q]) p ↔ IsRunningMaximum ps p ∨ p = q ∧ ∀ r ∈ ps, r < q := by
  constructor
  · rintro ⟨before, hprefix, hbelow⟩
    rcases List.prefix_concat_iff.mp hprefix with he | hprefix
    · obtain ⟨rfl, hlast⟩ := List.append_inj' he rfl
      obtain rfl := List.singleton_inj.mp hlast
      exact .inr ⟨rfl, hbelow⟩
    · exact .inl ⟨before, hprefix, hbelow⟩
  · rintro (⟨before, hprefix, hbelow⟩ | ⟨rfl, hbelow⟩)
    · exact ⟨before, hprefix.trans (List.prefix_append _ _), hbelow⟩
    · exact ⟨ps, List.prefix_rfl, hbelow⟩

/-- If no position is below one before it, each of them is a running maximum, where it comes for the
first time. -/
theorem isRunningMaximum_iff_mem (h : ps.Pairwise (· ≤ ·)) :
    IsRunningMaximum ps p ↔ p ∈ ps := by
  refine ⟨IsRunningMaximum.mem, fun hp => ?_⟩
  induction ps using List.reverseRecOn with
  | nil => cases hp
  | append_singleton ps q ih =>
    rw [isRunningMaximum_concat]
    obtain ⟨hbefore, -, hle⟩ := List.pairwise_append.mp h
    by_cases hold : p ∈ ps
    · exact .inl (ih hbefore hold)
    · have hlast : p = q := by simpa [hold] using hp
      subst hlast
      refine .inr ⟨rfl, fun r hr => ?_⟩
      refine Nat.lt_of_le_of_ne (hle r hr p (List.mem_singleton_self p)) fun he => ?_
      rw [Position.ext he] at hr
      exact hold hr

/-- The largest position is a running maximum, where it comes for the first time. -/
theorem isRunningMaximum_of_max? (h : ps.max? = some p) : IsRunningMaximum ps p := by
  induction ps using List.reverseRecOn with
  | nil => cases h
  | append_singleton ps q ih =>
    rw [isRunningMaximum_concat]
    obtain ⟨hmem, hle⟩ := List.max?_eq_some_iff.mp h
    have hbefore : ∀ r ∈ ps, r ≤ p := fun r hr => hle r (List.mem_append_left _ hr)
    by_cases hold : p ∈ ps
    · exact .inl (ih (List.max?_eq_some_iff.mpr ⟨hold, hbefore⟩))
    · have hlast : p = q := by simpa [hold] using hmem
      subst hlast
      refine .inr ⟨rfl, fun r hr => Nat.lt_of_le_of_ne (hbefore r hr) fun he => ?_⟩
      rw [Position.ext he] at hr
      exact hold hr

end Logbook
