/-!
# Positions in a record stream

Every record of a device session has a position, counted from zero. A position is a 32-bit
number, and the largest one is not a place in the stream: devices send it to say "unset".

- `Position`: a 32-bit position, the unset mark included.
- `Position.unset`, `Position.last`: the mark, and the highest position a record can have.
- `Position.next`, `Position.prev`: neighbours, which stop at `last` and at `zero`.
- `Position.toNat_next`, `Position.toNat_prev`: the neighbours as numbers, the form in which
  arithmetic on positions is done.

Positions are ordered as their numbers are, so that the largest one of a list can be spoken of.
-/

namespace Logbook

/-- Where a record stands in its session's stream: a 32-bit number whose largest value is the
mark for "unset". -/
@[ext]
structure Position where
  /-- The position as a number. -/
  toNat : Nat
  toNat_lt : toNat < 4294967296
deriving DecidableEq

namespace Position

/-- The mark that devices send in place of a position. -/
def unset : Position := ⟨4294967295, by decide⟩

/-- The position of a session's first record. -/
def zero : Position := ⟨0, by decide⟩

/-- The highest position a record can have, one below the unset mark. -/
def last : Position := ⟨4294967294, by decide⟩

/-- The position with a given number, the unset mark included. -/
def ofNat? (n : Nat) : Option Position :=
  if h : n < 4294967296 then some ⟨n, h⟩ else none

/-- The position is a place in the stream, not the unset mark. -/
def IsSet (p : Position) : Prop := p ≠ unset

instance (p : Position) : Decidable p.IsSet := inferInstanceAs (Decidable (p ≠ unset))

/-- The position, if it is a place in the stream. -/
def known? (p : Position) : Option Position := if p.IsSet then some p else none

instance : LT Position := ⟨fun p q => p.toNat < q.toNat⟩

instance : LE Position := ⟨fun p q => p.toNat ≤ q.toNat⟩

instance (p q : Position) : Decidable (p < q) :=
  inferInstanceAs (Decidable (p.toNat < q.toNat))

instance (p q : Position) : Decidable (p ≤ q) :=
  inferInstanceAs (Decidable (p.toNat ≤ q.toNat))

instance : Max Position := maxOfLe

instance : Min Position := minOfLe

/-- The following position; the highest one follows itself. -/
def next (p : Position) : Position := ⟨min (p.toNat + 1) 4294967294, by omega⟩

/-- The preceding position; the first one precedes itself. -/
def prev (p : Position) : Position :=
  ⟨p.toNat - 1, Nat.lt_of_le_of_lt (Nat.sub_le ..) p.toNat_lt⟩

instance : ToString Position := ⟨fun p => toString p.toNat⟩

/-! ### Positions as numbers -/

theorem lt_iff {p q : Position} : p < q ↔ p.toNat < q.toNat := Iff.rfl

theorem le_iff {p q : Position} : p ≤ q ↔ p.toNat ≤ q.toNat := Iff.rfl

theorem le_antisymm {p q : Position} (h : p ≤ q) (h' : q ≤ p) : p = q :=
  Position.ext (Nat.le_antisymm h h')

@[simp] theorem toNat_next (p : Position) : p.next.toNat = min (p.toNat + 1) 4294967294 := rfl

@[simp] theorem toNat_prev (p : Position) : p.prev.toNat = p.toNat - 1 := rfl

/-- A position is set exactly when it is at most the last one. -/
theorem isSet_iff {p : Position} : p.IsSet ↔ p.toNat ≤ 4294967294 := by
  have := p.toNat_lt
  simp only [IsSet, ne_eq, Position.ext_iff, unset]
  omega

/-- The neighbour above is always a place in the stream. -/
theorem isSet_next (p : Position) : p.next.IsSet := by
  simp only [isSet_iff, toNat_next]
  omega

@[simp] theorem toNat_max (p q : Position) : (max p q).toNat = max p.toNat q.toNat := by
  show (if p ≤ q then q else p).toNat = max p.toNat q.toNat
  split <;> rename_i h <;> rw [le_iff] at h <;> omega

@[simp] theorem toNat_min (p q : Position) : (min p q).toNat = min p.toNat q.toNat := by
  show (if p ≤ q then p else q).toNat = min p.toNat q.toNat
  split <;> rename_i h <;> rw [le_iff] at h <;> omega

/-- A number is that of one position at most. -/
theorem ofNat?_eq_some {n : Nat} {p : Position} : ofNat? n = some p ↔ p.toNat = n := by
  have := p.toNat_lt
  unfold ofNat?
  split
  · rw [Option.some_inj, Position.ext_iff, eq_comm]
  · next h =>
    refine iff_of_false (Option.some_ne_none p).symm ?_
    omega

/-- The positions with the given numbers. -/
theorem mem_filterMap_ofNat? {ns : List Nat} {p : Position} :
    p ∈ ns.filterMap ofNat? ↔ p.toNat ∈ ns := by
  simp only [List.mem_filterMap, ofNat?_eq_some]
  exact ⟨fun ⟨n, hn, he⟩ => he ▸ hn, fun hn => ⟨_, hn, rfl⟩⟩

/-- Positions stand in the order of their numbers. -/
theorem pairwise_filterMap_ofNat? {R : Nat → Nat → Prop} {ns : List Nat} (h : ns.Pairwise R) :
    (ns.filterMap ofNat?).Pairwise fun p q => R p.toNat q.toNat := by
  refine h.filterMap _ fun i j hij p hp q hq => ?_
  rw [ofNat?_eq_some.mp hp, ofNat?_eq_some.mp hq]
  exact hij

/-! ### The order of positions -/

instance : Std.IsLinearOrder Position where
  le_refl _ := Nat.le_refl _
  le_trans _ _ _ := Nat.le_trans
  le_antisymm _ _ := le_antisymm
  le_total _ _ := Nat.le_total _ _

instance : Std.LawfulOrderMax Position where
  max_le_iff p q r := by
    rw [le_iff, le_iff, le_iff, toNat_max]
    omega
  max_eq_or p q := by
    rcases Nat.le_total p.toNat q.toNat with h | h
    · exact .inr (Position.ext (by rw [toNat_max]; omega))
    · exact .inl (Position.ext (by rw [toNat_max]; omega))

end Position

end Logbook
