import Logbook.Record
import Logbook.Span

/-!
# The records of a session

A session holds at most one record for each position. The store keeps them in ascending order,
so its bounds, its size and its holes can be read off the list.

- `Store.insert`: stores a record; a later arrival replaces the one at its position.
- `Store.get?`, `p ∈ s`: the record at a position, and whether there is one.
- `Store.lowest?`, `Store.highest?`, `Store.size`: the bounds and the number of records.
- `Store.window`: the records from one position to another.
- `Store.get?_insert`, `Store.mem_insert`, `Store.size_insert`: what an insertion does.
-/

namespace Logbook

namespace Record

/-- Puts a record in its place in an ascending list, over the one at its position if there is
one. -/
def insertInto (r : Record) : List Record → List Record
  | [] => [r]
  | x :: rest =>
    if r.position < x.position then r :: x :: rest
    else if r.position = x.position then r :: rest
    else x :: insertInto r rest

theorem mem_of_mem_insertInto {r a : Record} {l : List Record} (h : a ∈ r.insertInto l) :
    a = r ∨ a ∈ l := by
  induction l with
  | nil => simpa [insertInto] using h
  | cons x rest ih =>
    unfold insertInto at h
    split at h
    · simpa using h
    · split at h
      · rcases List.mem_cons.1 h with h | h
        · exact .inl h
        · exact .inr (List.mem_cons_of_mem _ h)
      · rcases List.mem_cons.1 h with h | h
        · exact .inr (h ▸ List.mem_cons_self)
        · exact (ih h).imp_right (List.mem_cons_of_mem _)

/-- An ascending list stays ascending. -/
theorem pairwise_insertInto {r : Record} {l : List Record}
    (h : l.Pairwise (·.position < ·.position)) :
    (r.insertInto l).Pairwise (·.position < ·.position) := by
  induction l with
  | nil => simp [insertInto]
  | cons x rest ih =>
    obtain ⟨hx, hrest⟩ := List.pairwise_cons.1 h
    unfold insertInto
    split
    · next hlt =>
      refine List.pairwise_cons.2 ⟨fun a ha => ?_, h⟩
      rcases List.mem_cons.1 ha with rfl | ha
      · exact hlt
      · exact Nat.lt_trans hlt (hx a ha)
    · split
      · next heq =>
        refine List.pairwise_cons.2 ⟨fun a ha => ?_, hrest⟩
        rw [heq]
        exact hx a ha
      · next hlt hne =>
        refine List.pairwise_cons.2 ⟨fun a ha => ?_, ih hrest⟩
        rcases mem_of_mem_insertInto ha with rfl | ha
        · have : a.position.toNat ≠ x.position.toNat := fun e => hne (Position.ext e)
          have : ¬ a.position.toNat < x.position.toNat := hlt
          show x.position.toNat < a.position.toNat
          omega
        · exact hx a ha

/-- The first record of an ascending list is the lowest one. -/
theorem head_le {x a : Record} {l : List Record}
    (h : (x :: l).Pairwise (·.position < ·.position)) (ha : a ∈ x :: l) :
    x.position ≤ a.position := by
  rcases List.mem_cons.1 ha with rfl | ha
  · exact Nat.le_refl _
  · exact Nat.le_of_lt ((List.pairwise_cons.1 h).1 a ha)

end Record

/-- The records of a session, at most one for each position, in ascending order. -/
structure Store where
  records : List Record
  ascending : records.Pairwise (·.position < ·.position)
deriving DecidableEq

namespace Store

/-- The store without records. -/
def empty : Store := ⟨[], .nil⟩

/-- Stores a record, over the one at its position if there is one. -/
def insert (s : Store) (r : Record) : Store :=
  ⟨r.insertInto s.records, Record.pairwise_insertInto s.ascending⟩

/-- The record at a position. -/
def get? (s : Store) (p : Position) : Option Record := s.records.find? (·.position = p)

instance : Membership Position Store := ⟨fun s p => ∃ r ∈ s.records, r.position = p⟩

instance (p : Position) (s : Store) : Decidable (p ∈ s) :=
  inferInstanceAs (Decidable (∃ r ∈ s.records, r.position = p))

/-- The lowest held position. -/
def lowest? (s : Store) : Option Position := s.records.head?.map (·.position)

/-- The highest held position. -/
def highest? (s : Store) : Option Position := s.records.getLast?.map (·.position)

/-- How many records there are. -/
def size (s : Store) : Nat := s.records.length

/-- The records from `first` to `last`, in ascending order. Only bounds in order make a window. -/
def window (s : Store) (first last : Position) (_ : first ≤ last) : List Record :=
  s.records.filter fun r => first ≤ r.position ∧ r.position ≤ last

/-! ### What an insertion does -/

theorem mem_iff {p : Position} {s : Store} : p ∈ s ↔ ∃ r ∈ s.records, r.position = p := Iff.rfl

theorem get?_eq_none_iff {s : Store} {p : Position} : s.get? p = none ↔ p ∉ s := by
  simp [get?, mem_iff]

/-- What is found at a position stands at that position. -/
theorem position_of_get? {s : Store} {p : Position} {r : Record} (h : s.get? p = some r) :
    r.position = p := by
  simpa using List.find?_some h

/-- The inserted record is found at its position, and every other position is as before. -/
theorem get?_insert (s : Store) (r : Record) (p : Position) :
    (s.insert r).get? p = if p = r.position then some r else s.get? p := by
  show (r.insertInto s.records).find? _ = if p = r.position then some r else s.records.find? _
  induction s.records with
  | nil => simp [Record.insertInto, eq_comm]
  | cons x rest ih =>
    unfold Record.insertInto
    split
    · by_cases hp : p = r.position
      · simp [hp]
      · simp [hp, Ne.symm hp]
    · split
      · next heq =>
        by_cases hp : p = r.position
        · simp [hp]
        · simp [hp, Ne.symm hp, ← heq]
      · next hne =>
        by_cases hx : x.position = p
        · simp [hx, hx ▸ Ne.symm hne]
        · simp [hx, ih]

theorem mem_insert {s : Store} {r : Record} {p : Position} :
    p ∈ s.insert r ↔ p = r.position ∨ p ∈ s := by
  have h := get?_insert s r p
  by_cases hp : p = r.position
  · rw [if_pos hp] at h
    have : ¬ p ∉ s.insert r := by rw [← get?_eq_none_iff, h]; simp
    simp [hp, Decidable.not_not.1 (hp ▸ this)]
  · rw [if_neg hp] at h
    have : p ∉ s.insert r ↔ p ∉ s := by rw [← get?_eq_none_iff, ← get?_eq_none_iff, h]
    simp [hp, Decidable.not_iff_not.1 this]

/-- An insertion adds one record, unless it replaces one. -/
theorem size_insert (s : Store) (r : Record) :
    (s.insert r).size = if r.position ∈ s then s.size else s.size + 1 := by
  obtain ⟨l, hl⟩ := s
  show (r.insertInto l).length =
    if (∃ a ∈ l, a.position = r.position) then l.length else l.length + 1
  induction l with
  | nil => simp [Record.insertInto]
  | cons x rest ih =>
    obtain ⟨hx, hrest⟩ := List.pairwise_cons.1 hl
    unfold Record.insertInto
    split
    · next hlt =>
      have : ¬ ∃ a ∈ x :: rest, a.position = r.position := by
        rintro ⟨a, ha, he⟩
        have hlt' : r.position.toNat < x.position.toNat := hlt
        rcases List.mem_cons.1 ha with rfl | ha
        · rw [he] at hlt'
          exact Nat.lt_irrefl _ hlt'
        · have h' : x.position.toNat < a.position.toNat := hx a ha
          rw [he] at h'
          omega
      rw [if_neg this]
      rfl
    · split
      · next heq => simp [heq]
      · next hne =>
        have hne' : x.position ≠ r.position := fun e => hne e.symm
        simp only [List.length_cons, ih hrest, List.mem_cons, exists_eq_or_imp, hne', false_or]
        split <;> rfl

end Store

end Logbook
