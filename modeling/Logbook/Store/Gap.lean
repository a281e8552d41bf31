import Logbook.Store

/-!
# Holes in a store

Records get lost on both channels, so a store has holes. Two questions about them decide what is
asked of a device: where the first hole of a window lies, and how far the records reach without
a hole from the lowest one on.

- `Store.firstAbsent`: the first number from a given one on that an ascending list of records
  does not have.
- `Store.gap?`: the first run of missing positions of a window.
- `Store.resumeFrom`: where a request has to begin so that it does not ask for the first run of
  records again.
-/

namespace Logbook.Store

/-- The first number from `n` on at which an ascending list of records has none. -/
def firstAbsent (n : Nat) : List Record → Nat
  | [] => n
  | r :: rest => if r.position.toNat = n then firstAbsent (n + 1) rest else n

/-- The last position that is reached from `p` on without a hole. -/
def runEnd (p : Position) : List Record → Position
  | [] => p
  | r :: rest => if r.position.toNat = p.toNat + 1 then runEnd r.position rest else p

/-- The first run of missing positions from `first` to `last`: from the first position that is
absent to the last one before a record is held again. There is none if all positions are held,
or if the bounds make no span. -/
def gap? (s : Store) (first last : Position) : Option Span :=
  if h : first ≤ last ∧ last.IsSet then
    let lower := firstAbsent first.toNat (s.window first last h.1)
    if hl : lower ≤ last.toNat then
      let lower : Position := ⟨lower, Nat.lt_of_le_of_lt hl last.toNat_lt⟩
      let upper := match (s.window lower last hl).head? with
        | some r => r.position.prev
        | none => last
      Span.ofBounds? lower upper
    else none
  else none

/-- Where a request for all positions from `first` on begins, so that the records held without
a hole from there on are not asked for again. -/
def resumeFrom (s : Store) (first : Position) : Position :=
  match s.records with
  | [] => first
  | r :: rest =>
    if r.position ≤ first then max (runEnd r.position rest).next first else first

end Logbook.Store
