import Logbook.Proofs.Store.Bounds

/-!
# The holes of a store

A hole is a run of missing positions that lies right between two held ones. The holes of a store
can be read off its list, and their number is what filling them brings down.

- `Store.Hole`: a span is a hole.
- `Store.holes`: all holes, in ascending order; `Store.mem_holes` says that they are these.
- `Store.FirstGap.hole`: the first run of missing positions between two held ones is a hole.
- `Store.Bounded.mem_gap?_iff`: which missing positions are in the first hole.
- `Store.length_holes_of_filled`: a hole that is filled is one hole less.
-/

namespace Logbook.Store

variable {s t : Store} {gap : Span} {p : Position}

/-- A run of missing positions right between two held ones. -/
structure Hole (s : Store) (gap : Span) : Prop where
  ordered : gap.first ≤ gap.last
  not_held : ∀ p ∈ gap, p ∉ s
  before : ∃ p ∈ s, p.toNat + 1 = gap.first.toNat
  after : ∃ p ∈ s, p.toNat = gap.last.toNat + 1

/-- The holes of an ascending list of records that follows a record at `p`. -/
def holesAfter (p : Position) : List Record → List Span
  | [] => []
  | r :: rest =>
    if r.position.toNat = p.toNat + 1 then holesAfter r.position rest
    else ⟨p.next, r.position.prev⟩ :: holesAfter r.position rest

/-- The holes of a store, in ascending order. -/
def holes (s : Store) : List Span :=
  match s.records with
  | [] => []
  | r :: rest => holesAfter r.position rest

/-! ## Holes as spans -/

namespace Hole

variable {gap' : Span}

theorem first_mem (h : s.Hole gap) : gap.first ∈ gap := ⟨Nat.le_refl _, h.ordered⟩

/-- No hole begins below another one that it shares a position with. -/
theorem first_le (h : s.Hole gap) (h' : s.Hole gap') (hp : p ∈ gap) (hp' : p ∈ gap') :
    gap'.first ≤ gap.first := by
  obtain ⟨q, hq, hnext⟩ := h'.before
  by_contra hlt
  -- the held position before the one hole would lie within the other
  refine h.not_held q (Span.mem_iff.mpr ?_) hq
  rw [Position.le_iff] at hlt
  rw [Span.mem_iff] at hp hp'
  omega

/-- No hole ends above another one that it shares a position with. -/
theorem last_le (h : s.Hole gap) (h' : s.Hole gap') (hp : p ∈ gap) (hp' : p ∈ gap') :
    gap.last ≤ gap'.last := by
  obtain ⟨q, hq, hnext⟩ := h'.after
  by_contra hlt
  refine h.not_held q (Span.mem_iff.mpr ?_) hq
  rw [Position.le_iff] at hlt
  rw [Span.mem_iff] at hp hp'
  omega

/-- Holes that share a position are the same. -/
theorem eq_of_mem (h : s.Hole gap) (h' : s.Hole gap') (hp : p ∈ gap) (hp' : p ∈ gap') :
    gap = gap' := by
  have hfirst := Nat.le_antisymm (h'.first_le h hp' hp) (h.first_le h' hp hp')
  have hlast := Nat.le_antisymm (h.last_le h' hp hp') (h'.last_le h hp' hp)
  exact Span.ext (Position.ext hfirst) (Position.ext hlast)

end Hole

/-! ## Holes of a list -/

theorem mem_cons {x : Record} {l : List Record}
    (h : (x :: l).Pairwise (·.position < ·.position)) :
    p ∈ (⟨x :: l, h⟩ : Store) ↔
      p = x.position ∨ p ∈ (⟨l, (List.pairwise_cons.mp h).2⟩ : Store) := by
  rw [mem_iff, mem_iff]
  simp [eq_comm]

/-- The first record of a list is the lowest one. -/
theorem head_le_of_mem {x : Record} {l : List Record}
    {h : (x :: l).Pairwise (·.position < ·.position)} (hp : p ∈ (⟨x :: l, h⟩ : Store)) :
    x.position.toNat ≤ p.toNat := by
  obtain ⟨r, hr, rfl⟩ := hp
  exact Record.head_le h hr

section Cons

variable {x y : Record} {rest : List Record}
  (h : (x :: y :: rest).Pairwise (·.position < ·.position))
include h

theorem head_lt_second : x.position.toNat < y.position.toNat :=
  (List.pairwise_cons.mp h).1 y List.mem_cons_self

/-- What follows the first record of a list is not yet the last position. -/
theorem toNat_next_head (hne : y.position.toNat ≠ x.position.toNat + 1) :
    x.position.next.toNat = x.position.toNat + 1 := by
  have hxy := head_lt_second h
  have hlt := y.position.toNat_lt
  rw [Position.toNat_next]
  omega

/-- There is a hole after the first record unless the second one follows at once. -/
theorem hole_head (hne : y.position.toNat ≠ x.position.toNat + 1) :
    Hole ⟨x :: y :: rest, h⟩ ⟨x.position.next, y.position.prev⟩ := by
  have hxy := head_lt_second h
  have hnext := toNat_next_head h hne
  have hprev := Position.toNat_prev y.position
  refine ⟨?_, ?_, ⟨x.position, ⟨x, List.mem_cons_self, rfl⟩, hnext.symm⟩, y.position,
    ⟨y, List.mem_cons_of_mem _ List.mem_cons_self, rfl⟩, ?_⟩
  · show x.position.next.toNat ≤ y.position.prev.toNat
    omega
  · intro p hp hs
    rw [Span.mem_iff, hnext, hprev] at hp
    rcases (mem_cons h).mp hs with rfl | hs
    · omega
    · have hle := head_le_of_mem hs
      omega
  · show y.position.toNat = y.position.prev.toNat + 1
    omega

/-- A hole among later records is a hole of the whole list. -/
theorem Hole.of_tail (hgap : Hole ⟨y :: rest, (List.pairwise_cons.mp h).2⟩ gap) :
    Hole ⟨x :: y :: rest, h⟩ gap := by
  obtain ⟨p, hp, hbefore⟩ := hgap.before
  obtain ⟨q, hq, hafter⟩ := hgap.after
  have hxy := head_lt_second h
  have hyp := head_le_of_mem hp
  refine ⟨hgap.ordered, ?_, ⟨p, (mem_cons h).mpr (.inr hp), hbefore⟩, q,
    (mem_cons h).mpr (.inr hq), hafter⟩
  intro z hz hs
  rcases (mem_cons h).mp hs with rfl | hs
  · rw [Span.mem_iff] at hz
    omega
  · exact hgap.not_held z hz hs

/-- A hole comes right after the first record, or it is among later ones. -/
theorem Hole.head_or_tail (hgap : Hole ⟨x :: y :: rest, h⟩ gap) :
    y.position.toNat ≠ x.position.toNat + 1 ∧ gap = ⟨x.position.next, y.position.prev⟩ ∨
      Hole ⟨y :: rest, (List.pairwise_cons.mp h).2⟩ gap := by
  obtain ⟨p, hp, hbefore⟩ := hgap.before
  obtain ⟨q, hq, hafter⟩ := hgap.after
  have hxy := head_lt_second h
  have hordered := Position.le_iff.mp hgap.ordered
  rcases (mem_cons h).mp hp with rfl | hp
  · left
    have hyq : y.position.toNat ≤ q.toNat := by
      rcases (mem_cons h).mp hq with rfl | hq
      · omega
      · exact head_le_of_mem hq
    -- the second record is not in the hole, so it is the one after it
    have hout : y.position ∉ gap := fun hin =>
      hgap.not_held _ hin ⟨y, List.mem_cons_of_mem _ List.mem_cons_self, rfl⟩
    rw [Span.mem_iff] at hout
    have hne : y.position.toNat ≠ x.position.toNat + 1 := by omega
    have hnext := toNat_next_head h hne
    have hprev := Position.toNat_prev y.position
    refine ⟨hne, Span.ext (Position.ext ?_) (Position.ext ?_)⟩
    · show gap.first.toNat = x.position.next.toNat
      omega
    · show gap.last.toNat = y.position.prev.toNat
      omega
  · right
    have hyp := head_le_of_mem hp
    refine ⟨hgap.ordered, fun p hp hs => hgap.not_held p hp ((mem_cons h).mpr (.inr hs)),
      ⟨p, hp, hbefore⟩, q, ((mem_cons h).mp hq).resolve_left ?_, hafter⟩
    rintro rfl
    omega

end Cons

/-- One record alone has no hole beside it. -/
theorem not_hole_singleton {x : Record} (h : [x].Pairwise (·.position < ·.position)) :
    ¬ Hole ⟨[x], h⟩ gap := by
  rintro ⟨hordered, -, ⟨p, ⟨r, hr, rfl⟩, hbefore⟩, q, ⟨r', hr', rfl⟩, hafter⟩
  rw [List.mem_singleton.mp hr] at hbefore
  rw [List.mem_singleton.mp hr'] at hafter
  rw [Position.le_iff] at hordered
  omega

theorem mem_holesAfter {x : Record} {l : List Record}
    (h : (x :: l).Pairwise (·.position < ·.position)) :
    gap ∈ holesAfter x.position l ↔ Hole ⟨x :: l, h⟩ gap := by
  induction l generalizing x with
  | nil => exact iff_of_false List.not_mem_nil (not_hole_singleton h)
  | cons y rest ih =>
    have hrest := (List.pairwise_cons.mp h).2
    unfold holesAfter
    split
    · next heq =>
      rw [ih hrest]
      exact ⟨fun hgap => hgap.of_tail h, fun hgap =>
        (hgap.head_or_tail h).resolve_left fun hhead => hhead.1 heq⟩
    · next hne =>
      rw [List.mem_cons, ih hrest]
      constructor
      · rintro (rfl | hgap)
        · exact hole_head h hne
        · exact hgap.of_tail h
      · intro hgap
        exact (hgap.head_or_tail h).imp_left (·.2)

/-- The holes are found in the list. -/
theorem mem_holes : gap ∈ s.holes ↔ s.Hole gap := by
  obtain ⟨records, h⟩ := s
  cases records with
  | nil =>
    refine iff_of_false List.not_mem_nil ?_
    rintro ⟨-, -, ⟨p, ⟨r, hr, -⟩, -⟩, -⟩
    exact absurd hr List.not_mem_nil
  | cons x rest => exact mem_holesAfter h

/-! ## The number of holes -/

theorem nodup_holesAfter {x : Record} {l : List Record}
    (h : (x :: l).Pairwise (·.position < ·.position)) : (holesAfter x.position l).Nodup := by
  induction l generalizing x with
  | nil => exact List.nodup_nil
  | cons y rest ih =>
    have hrest := (List.pairwise_cons.mp h).2
    have hxy := head_lt_second h
    unfold holesAfter
    split
    · exact ih hrest
    · refine List.nodup_cons.mpr ⟨?_, ih hrest⟩
      intro hin
      -- all holes of the rest lie above its first record
      obtain ⟨p, hp, hbefore⟩ := ((mem_holesAfter hrest).mp hin).before
      have hle := head_le_of_mem hp
      have hfirst : p.toNat + 1 = x.position.next.toNat := hbefore
      rw [Position.toNat_next] at hfirst
      omega

theorem nodup_holes (s : Store) : s.holes.Nodup := by
  obtain ⟨records, h⟩ := s
  cases records with
  | nil => exact List.nodup_nil
  | cons x rest => exact nodup_holesAfter h

/-- Stores with the same holes have the same number of them. -/
theorem length_holes_congr (h : ∀ gap, s.Hole gap ↔ t.Hole gap) :
    s.holes.length = t.holes.length := by
  refine List.Perm.length_eq ((List.perm_ext_iff_of_nodup s.nodup_holes t.nodup_holes).mpr ?_)
  intro gap
  rw [mem_holes, mem_holes]
  exact h gap

/-- What is filled of a store is a hole no more, and all else is as it was. -/
theorem hole_of_filled (hgap : s.Hole gap) (ht : ∀ p, p ∈ t ↔ p ∈ s ∨ p ∈ gap) (gap' : Span) :
    t.Hole gap' ↔ s.Hole gap' ∧ gap' ≠ gap := by
  constructor
  · intro h
    have hne : gap' ≠ gap := by
      rintro rfl
      exact h.not_held _ h.first_mem ((ht _).mpr (.inr h.first_mem))
    have hout {p : Position} (hp : p ∈ gap') : p ∉ gap := fun hin =>
      h.not_held p hp ((ht p).mpr (.inr hin))
    obtain ⟨q, hq, hbefore⟩ := h.before
    obtain ⟨q', hq', hafter⟩ := h.after
    refine ⟨⟨h.ordered, fun p hp hs => h.not_held p hp ((ht p).mpr (.inl hs)), ⟨q, ?_, hbefore⟩,
      q', ?_, hafter⟩, hne⟩
    -- a neighbour of the one hole that lies in the other would be the end of that one
    · refine ((ht q).mp hq).resolve_right fun hin => ?_
      obtain ⟨z, hz, hz'⟩ := hgap.after
      rw [Span.mem_iff] at hin
      have hfirst := hout h.first_mem
      rw [Span.mem_iff] at hfirst
      have hsame : z = gap'.first := Position.ext (by omega)
      exact h.not_held _ h.first_mem ((ht _).mpr (.inl (hsame ▸ hz)))
    · refine ((ht q').mp hq').resolve_right fun hin => ?_
      obtain ⟨z, hz, hz'⟩ := hgap.before
      rw [Span.mem_iff] at hin
      have hmem : gap'.last ∈ gap' := ⟨h.ordered, Nat.le_refl _⟩
      have hlast := hout hmem
      rw [Span.mem_iff] at hlast
      have hsame : z = gap'.last := Position.ext (by omega)
      exact h.not_held _ hmem ((ht _).mpr (.inl (hsame ▸ hz)))
  · rintro ⟨h, hne⟩
    obtain ⟨q, hq, hbefore⟩ := h.before
    obtain ⟨q', hq', hafter⟩ := h.after
    refine ⟨h.ordered, ?_, ⟨q, (ht q).mpr (.inl hq), hbefore⟩, q', (ht q').mpr (.inl hq'), hafter⟩
    intro p hp hs
    rcases (ht p).mp hs with hs | hin
    · exact h.not_held p hp hs
    · exact hne (h.eq_of_mem hgap hp hin)

/-- **A hole that is filled is one hole less.** -/
theorem length_holes_of_filled (hgap : s.Hole gap) (ht : ∀ p, p ∈ t ↔ p ∈ s ∨ p ∈ gap) :
    t.holes.length + 1 = s.holes.length := by
  have hnot : gap ∉ t.holes := by
    rw [mem_holes, hole_of_filled hgap ht]
    exact fun h => h.2 rfl
  have hnodup : (gap :: t.holes).Nodup := List.nodup_cons.mpr ⟨hnot, t.nodup_holes⟩
  refine List.Perm.length_eq ((List.perm_ext_iff_of_nodup hnodup s.nodup_holes).mpr ?_)
  intro gap'
  rw [List.mem_cons, mem_holes, mem_holes, hole_of_filled hgap ht]
  constructor
  · rintro (rfl | h)
    · exact hgap
    · exact h.1
  · intro h
    by_cases he : gap' = gap
    · exact .inl he
    · exact .inr ⟨h, he⟩

/-- Holes depend on nothing but the held positions. -/
theorem hole_congr (h : ∀ p, p ∈ t ↔ p ∈ s) (gap : Span) : t.Hole gap ↔ s.Hole gap := by
  have himp {a b : Store} (hab : ∀ p, p ∈ a ↔ p ∈ b) (hgap : a.Hole gap) : b.Hole gap := by
    obtain ⟨hordered, hnot, ⟨q, hq, hbefore⟩, q', hq', hafter⟩ := hgap
    exact ⟨hordered, fun p hp hb => hnot p hp ((hab p).mpr hb), ⟨q, (hab q).mp hq, hbefore⟩, q',
      (hab q').mp hq', hafter⟩
  exact ⟨himp h, himp fun p => (h p).symm⟩

/-- The record that follows the highest one makes no hole. -/
theorem hole_insert_of_next {x : Record} (hp : p ∈ s) (hhighest : ∀ q ∈ s, q ≤ p)
    (hx : x.position.toNat = p.toNat + 1) (gap : Span) :
    (s.insert x).Hole gap ↔ s.Hole gap := by
  have hbelow {q : Position} (hq : q ∈ s) : q.toNat ≤ p.toNat := hhighest q hq
  constructor
  · rintro ⟨hordered, hnot, ⟨q, hq, hbefore⟩, q', hq', hafter⟩
    rw [Position.le_iff] at hordered
    have hend : q'.toNat ≤ x.position.toNat := by
      rcases mem_insert.mp hq' with rfl | hq'
      · exact Nat.le_refl _
      · have hle := hbelow hq'
        omega
    -- the position below the new one is held, so the hole does not reach up to it
    have hne : gap.last ≠ p := by
      rintro rfl
      exact hnot _ ⟨hordered, Nat.le_refl _⟩ (mem_insert.mpr (.inr hp))
    have hne : gap.last.toNat ≠ p.toNat := fun he => hne (Position.ext he)
    have hold {z : Position} (hz : z ∈ s.insert x) (hlt : z.toNat ≤ p.toNat) : z ∈ s := by
      refine (mem_insert.mp hz).resolve_left ?_
      rintro rfl
      omega
    exact ⟨hordered, fun z hz hs => hnot z hz (mem_insert.mpr (.inr hs)),
      ⟨q, hold hq (by omega), hbefore⟩, q', hold hq' (by omega), hafter⟩
  · rintro ⟨hordered, hnot, ⟨q, hq, hbefore⟩, q', hq', hafter⟩
    refine ⟨hordered, ?_, ⟨q, mem_insert.mpr (.inr hq), hbefore⟩, q', mem_insert.mpr (.inr hq'),
      hafter⟩
    intro z hz hs
    have hle := (Span.mem_iff.mp hz).2
    have hend := hbelow hq'
    rcases mem_insert.mp hs with rfl | hs
    · omega
    · exact hnot z hz hs

/-! ## The first hole -/

/-- Between two held positions the first run of missing ones is a hole. -/
theorem FirstGap.hole {first last : Position} (h : s.FirstGap first last gap) (hfirst : first ∈ s)
    (hlast : last ∈ s) : s.Hole gap := by
  have hle := Position.le_iff.mp h.first_le
  have hordered := Position.le_iff.mp h.ordered
  have hne : first.toNat ≠ gap.first.toNat := by
    intro he
    exact h.not_held _ ⟨Nat.le_refl _, h.ordered⟩ (Position.ext he ▸ hfirst)
  have hprev : gap.first.prev.toNat + 1 = gap.first.toNat := by
    rw [Position.toNat_prev]
    omega
  refine ⟨h.ordered, h.not_held, ⟨gap.first.prev, h.held_before _ ?_ ?_, hprev⟩,
    h.ends.resolve_left ?_⟩
  · rw [Position.le_iff]
    omega
  · rw [Position.lt_iff]
    omega
  · intro he
    exact h.not_held _ ⟨h.ordered, Nat.le_refl _⟩ (he ▸ hlast)

/-- The first hole has a missing position unless that lies below all that is held or above another
hole. -/
theorem Bounded.mem_gap?_iff {span : Span} (h : s.Bounded span) (hset : span.last.IsSet)
    (hp : p ∉ s) (hlast : p ≤ span.last) :
    (∃ gap, s.gap? span.first span.last = some gap ∧ p ∈ gap) ↔
      span.first < p ∧ ∀ gap, s.Hole gap → ¬ gap.last < p := by
  constructor
  · rintro ⟨gap, hgap, hin⟩
    obtain ⟨hfirst, -⟩ := firstGap_of_gap? hgap
    have hhole := hfirst.hole h.first h.last
    obtain ⟨q, hq, hbefore⟩ := hhole.before
    have hq := (Span.mem_iff.mp (h.within q hq)).1
    rw [Span.mem_iff] at hin
    refine ⟨?_, ?_⟩
    · rw [Position.lt_iff]
      omega
    · intro gap' hgap' hbelow
      obtain ⟨q', hq', hbefore'⟩ := hgap'.before
      have hq' := (Span.mem_iff.mp (h.within q' hq')).1
      have hordered := Position.le_iff.mp hgap'.ordered
      rw [Position.lt_iff] at hbelow
      by_cases hlt : gap'.first < gap.first
      -- below the first hole everything is held
      · refine hgap'.not_held _ hgap'.first_mem (hfirst.held_before _ ?_ hlt)
        rw [Position.le_iff]
        omega
      · rw [Position.lt_iff] at hlt
        have hmem : gap'.first ∈ gap := Span.mem_iff.mpr (by omega)
        obtain rfl := hhole.eq_of_mem hgap' hmem hgap'.first_mem
        omega
  · rintro ⟨hfirst, hholes⟩
    rcases s.gap?_cases span.first span.last with ⟨gap, hgap, hspec, -⟩ | ⟨-, hno | hall⟩
    · refine ⟨gap, hgap, Span.mem_iff.mpr ⟨?_, ?_⟩⟩
      · by_contra hlt
        exact hp (hspec.held_before p (Nat.le_of_lt hfirst) (Nat.lt_of_not_le hlt))
      · exact Nat.le_of_not_lt (hholes gap (hspec.hole h.first h.last))
    · exact absurd ⟨h.ordered, hset⟩ hno
    · exact absurd (hall p (Nat.le_of_lt hfirst) hlast) hp

/-- A store without holes covers all positions between its bounds, and only such a store does. -/
theorem Bounded.holes_eq_nil_iff {span : Span} (h : s.Bounded span) (hset : span.last.IsSet) :
    s.holes = [] ↔ s.Covers span := by
  constructor
  · intro hnil
    rcases s.gap?_cases span.first span.last with ⟨gap, -, hgap, -⟩ | ⟨-, hno | hall⟩
    · have hin := mem_holes.mpr (hgap.hole h.first h.last)
      rw [hnil] at hin
      exact absurd hin List.not_mem_nil
    · exact absurd ⟨h.ordered, hset⟩ hno
    · exact fun p hp => hall p hp.1 hp.2
  · intro hcovers
    refine List.eq_nil_iff_forall_not_mem.mpr fun gap hin => ?_
    have hgap := mem_holes.mp hin
    obtain ⟨q, hq, hbefore⟩ := hgap.before
    obtain ⟨q', hq', hafter⟩ := hgap.after
    have hge := (Span.mem_iff.mp (h.within q hq)).1
    have hle := (Span.mem_iff.mp (h.within q' hq')).2
    have hordered := Position.le_iff.mp hgap.ordered
    refine hgap.not_held _ hgap.first_mem (hcovers _ (Span.mem_iff.mpr ?_))
    omega

end Logbook.Store
