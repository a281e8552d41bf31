import Logbook.Position

/-!
# Spans of positions

A span is what one request asks for: every position from a first to a last one, both included.
`Span.ofBounds?` is how spans are made; it refuses bounds that are out of order and the unset
mark. A span that was read from a message has set bounds, but nothing checks their order.

- `Span.ofBounds?`, `Span.single`: spans from bounds, and the span of one position.
- `p ∈ s`: the position lies within the bounds.
- `Span.size`, `Span.positions`: how many positions there are, and the first few of them.
- `Span.ofBounds?_eq_some`: what the bounds of a span that was made satisfy.
-/

namespace Logbook

/-- The positions from `first` to `last`, both included. -/
@[ext]
structure Span where
  first : Position
  last : Position
deriving DecidableEq

namespace Span

/-- The span with these bounds; there is none if they are out of order or the upper one is
unset. -/
def ofBounds? (first last : Position) : Option Span :=
  if first ≤ last ∧ last.IsSet then some ⟨first, last⟩ else none

/-- The span of one position. The unset mark stands for the last position. -/
def single (p : Position) : Span := ⟨min p Position.last, min p Position.last⟩

instance : Membership Position Span := ⟨fun s p => s.first ≤ p ∧ p ≤ s.last⟩

instance (p : Position) (s : Span) : Decidable (p ∈ s) :=
  inferInstanceAs (Decidable (s.first ≤ p ∧ p ≤ s.last))

/-- The bounds are in order. -/
def Ordered (s : Span) : Prop := s.first ≤ s.last

instance (s : Span) : Decidable s.Ordered := inferInstanceAs (Decidable (s.first ≤ s.last))

/-- How many positions the span covers. -/
def size (s : Span) : Nat := s.last.toNat + 1 - s.first.toNat

/-- The first positions of the span, at most `limit` of them, in ascending order. -/
def positions (s : Span) (limit : Nat) : List Position :=
  (List.range (min limit s.size)).filterMap fun i => Position.ofNat? (s.first.toNat + i)

instance : ToString Span := ⟨fun s => s!"[{s.first}, {s.last}]"⟩

/-! ### What the bounds say -/

theorem mem_iff {p : Position} {s : Span} :
    p ∈ s ↔ s.first.toNat ≤ p.toNat ∧ p.toNat ≤ s.last.toNat := Iff.rfl

/-- A span that was made has its bounds in order and set. -/
theorem ofBounds?_eq_some {a b : Position} {s : Span} :
    ofBounds? a b = some s ↔ s = ⟨a, b⟩ ∧ a ≤ b ∧ b.IsSet := by
  unfold ofBounds?
  split
  · next h => simp [h, eq_comm]
  · next h => simp [h]

/-- Every position of a span whose upper bound is set has a place in the stream. -/
theorem isSet_of_mem {p : Position} {s : Span} (hset : s.last.IsSet) (h : p ∈ s) : p.IsSet :=
  Position.isSet_iff.mpr (Nat.le_trans h.2 (Position.isSet_iff.mp hset))

/-- A span in order covers at least one position. -/
theorem size_pos {s : Span} (h : s.Ordered) : 0 < s.size := by
  have h' : s.first.toNat ≤ s.last.toNat := h
  unfold size
  omega

end Span

end Logbook
