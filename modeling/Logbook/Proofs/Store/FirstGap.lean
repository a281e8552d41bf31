import Logbook.Store.Gap

/-!
# The first hole of a window

The search for a hole walks twice over the records of a window: once to the first position that
is absent, and once from there to the next record. What it finds is said here in terms of held
positions alone.

- `Store.FirstGap`: a span is the first run of missing positions between two bounds, and
  `Store.FirstGap.unique`, that there is only one.
- `Store.firstGap_of_gap?`: what the search finds is that.
- `Store.gap?_eq_none_iff`: it finds nothing exactly when there is nothing to be found.
- `Store.gap?_eq_some_iff`: it finds that run whenever there is one.
-/

namespace Logbook.Store

/-- The span is the first run of positions from `first` to `last` that are not held. -/
structure FirstGap (s : Store) (first last : Position) (gap : Span) : Prop where
  first_le : first ≤ gap.first
  ordered : gap.first ≤ gap.last
  le_last : gap.last ≤ last
  held_before : ∀ p, first ≤ p → p < gap.first → p ∈ s
  not_held : ∀ p ∈ gap, p ∉ s
  ends : gap.last = last ∨ ∃ p ∈ s, p.toNat = gap.last.toNat + 1

namespace FirstGap

variable {s : Store} {first last p : Position} {gap other : Span}

/-- It begins at the least position that is not held. -/
theorem first_le_of_not_held (h : s.FirstGap first last gap) (hge : first ≤ p) (hp : p ∉ s) :
    gap.first ≤ p :=
  Nat.le_of_not_lt fun hlt => hp (h.held_before p hge hlt)

/-- It goes on as far as nothing is held. -/
theorem le_last_of_not_held (h : s.FirstGap first last gap) (hle : p ≤ last)
    (hnone : ∀ q, gap.first ≤ q → q ≤ p → q ∉ s) : p ≤ gap.last := by
  rcases h.ends with hlast | ⟨q, hq, hnext⟩
  · exact hlast ▸ hle
  · have hordered : gap.first.toNat ≤ gap.last.toNat := h.ordered
    have habove : gap.first ≤ q := by
      rw [Position.le_iff]
      omega
    -- the record behind the run is not reached
    have hlt : ¬ q ≤ p := fun hqp => hnone q habove hqp hq
    rw [Position.le_iff] at hlt ⊢
    omega

theorem last_le (h : s.FirstGap first last gap) (h' : s.FirstGap first last other)
    (hfirst : gap.first = other.first) : gap.last ≤ other.last :=
  h'.le_last_of_not_held h.le_last fun q hge hle => h.not_held q ⟨hfirst ▸ hge, hle⟩

/-- What is missing of the window behind it does not follow on it. -/
theorem next_lt_of_not_held (h : s.FirstGap first last gap) (hge : first ≤ p) (hle : p ≤ last)
    (hp : p ∉ s) (hout : p ∉ gap) : gap.last.toNat + 1 < p.toNat := by
  have hbehind : ¬ p.toNat ≤ gap.last.toNat := fun hin => hout ⟨h.first_le_of_not_held hge hp, hin⟩
  rcases h.ends with hlast | ⟨q, hq, hnext⟩
  · rw [hlast] at hbehind
    exact absurd hle hbehind
  · have hne : p.toNat ≠ q.toNat := fun he => hp (Position.ext he ▸ hq)
    omega

/-- There is only one first run of missing positions. -/
theorem unique (h : s.FirstGap first last gap) (h' : s.FirstGap first last other) :
    gap = other := by
  have hfirst : gap.first = other.first := Position.le_antisymm
    (h.first_le_of_not_held h'.first_le (h'.not_held _ ⟨Nat.le_refl _, h'.ordered⟩))
    (h'.first_le_of_not_held h.first_le (h.not_held _ ⟨Nat.le_refl _, h.ordered⟩))
  exact Span.ext hfirst (Position.le_antisymm (h.last_le h' hfirst) (h'.last_le h hfirst.symm))

end FirstGap

/-! ## Windows -/

theorem mem_window {s : Store} {first last : Position} {h : first ≤ last} {r : Record} :
    r ∈ s.window first last h ↔ r ∈ s.records ∧ first ≤ r.position ∧ r.position ≤ last := by
  rw [window, List.mem_filter, decide_eq_true_iff]

theorem pairwise_window (s : Store) {first last : Position} (h : first ≤ last) :
    (s.window first last h).Pairwise (·.position < ·.position) :=
  s.ascending.sublist List.filter_sublist

/-- The head of a window is its lowest record. -/
theorem le_of_head?_window {s : Store} {first last : Position} {h : first ≤ last} {r x : Record}
    (hr : (s.window first last h).head? = some r) (hx : x ∈ s.window first last h) :
    r.position ≤ x.position := by
  obtain ⟨rest, hrest⟩ := List.head?_eq_some_iff.mp hr
  have hpair := s.pairwise_window h
  rw [hrest] at hx hpair
  exact Record.head_le hpair hx

/-! ## The first absent position -/

/-- The scan stops at the first number that the ascending list does not have. -/
theorem firstAbsent_spec {l : List Record} (hl : l.Pairwise (·.position < ·.position)) {n : Nat}
    (hn : ∀ r ∈ l, n ≤ r.position.toNat) :
    n ≤ firstAbsent n l ∧
      (∀ k, n ≤ k → k < firstAbsent n l → ∃ r ∈ l, r.position.toNat = k) ∧
      ∀ r ∈ l, r.position.toNat ≠ firstAbsent n l := by
  induction l generalizing n with
  | nil => exact ⟨Nat.le_refl n, fun k h₁ h₂ => absurd h₂ (Nat.not_lt.mpr h₁), by simp⟩
  | cons x rest ih =>
    obtain ⟨hx, hrest⟩ := List.pairwise_cons.mp hl
    have hxn := hn x List.mem_cons_self
    unfold firstAbsent
    split
    · next heq =>
      -- the head is at the number, so the scan goes on with the next one over the rest
      have habove : ∀ r ∈ rest, n + 1 ≤ r.position.toNat := by
        intro r hr
        have : x.position.toNat < r.position.toNat := hx r hr
        omega
      obtain ⟨hge, hheld, habsent⟩ := ih hrest habove
      refine ⟨by omega, ?_, ?_⟩
      · intro k h₁ h₂
        by_cases hk : k = n
        · exact ⟨x, List.mem_cons_self, heq.trans hk.symm⟩
        · obtain ⟨r, hr, he⟩ := hheld k (by omega) h₂
          exact ⟨r, List.mem_cons_of_mem _ hr, he⟩
      · intro r hr
        rcases List.mem_cons.mp hr with rfl | hr
        · omega
        · exact habsent r hr
    · next hne =>
      refine ⟨Nat.le_refl n, ?_, ?_⟩
      · intro k h₁ h₂
        exact absurd h₂ (Nat.not_lt.mpr h₁)
      · intro r hr
        rcases List.mem_cons.mp hr with rfl | hr
        · exact hne
        · have : x.position.toNat < r.position.toNat := hx r hr
          omega

/-- Below the first absent number of a window every position is held. -/
theorem held_of_lt_firstAbsent {s : Store} {first last : Position} (h : first ≤ last)
    {p : Position} (hge : first ≤ p)
    (hlt : p.toNat < firstAbsent first.toNat (s.window first last h)) : p ∈ s := by
  have hspec := firstAbsent_spec (s.pairwise_window h) fun r hr => (mem_window.mp hr).2.1
  obtain ⟨r, hr, he⟩ := hspec.2.1 p.toNat hge hlt
  exact ⟨r, (mem_window.mp hr).1, Position.ext he⟩

/-- The first absent number of a window is not below the window, and no position of the window
with this number is held. -/
theorem firstAbsent_window {s : Store} {first last : Position} (h : first ≤ last) :
    first.toNat ≤ firstAbsent first.toNat (s.window first last h) ∧
      ∀ p, p.toNat = firstAbsent first.toNat (s.window first last h) → p ≤ last → p ∉ s := by
  have hspec := firstAbsent_spec (s.pairwise_window h) fun r hr => (mem_window.mp hr).2.1
  refine ⟨hspec.1, ?_⟩
  rintro p hp hle ⟨r, hr, rfl⟩
  have hge : first ≤ r.position := by
    rw [Position.le_iff, hp]
    exact hspec.1
  exact hspec.2.2 r (mem_window.mpr ⟨hr, hge, hle⟩) hp

/-! ## The end of a hole -/

/-- The last position of the hole that begins at `lower`. -/
def gapEnd (s : Store) (lower last : Position) (h : lower ≤ last) : Position :=
  match (s.window lower last h).head? with
  | some r => r.position.prev
  | none => last

/-- A hole that begins at an absent position is not held up to its end, and it ends at the bound
or before a record. -/
theorem gapEnd_spec (s : Store) {lower last : Position} (h : lower ≤ last)
    (hlower : lower ∉ s) :
    lower ≤ s.gapEnd lower last h ∧ s.gapEnd lower last h ≤ last ∧
      (∀ p, lower ≤ p → p ≤ s.gapEnd lower last h → p ∉ s) ∧
      (s.gapEnd lower last h = last ∨
        ∃ p ∈ s, p.toNat = (s.gapEnd lower last h).toNat + 1) := by
  unfold gapEnd
  split
  · next r hr =>
    have hmem := mem_window.mp (List.mem_of_mem_head? hr)
    have hne : r.position.toNat ≠ lower.toNat := fun he =>
      hlower ⟨r, hmem.1, Position.ext he⟩
    have hge : lower.toNat ≤ r.position.toNat := hmem.2.1
    have hle : r.position.toNat ≤ last.toNat := hmem.2.2
    refine ⟨?_, ?_, ?_, .inr ⟨r.position, ⟨r, hmem.1, rfl⟩, ?_⟩⟩
    · rw [Position.le_iff, Position.toNat_prev]
      omega
    · rw [Position.le_iff, Position.toNat_prev]
      omega
    · rintro p h₁ h₂ ⟨x, hx, rfl⟩
      rw [Position.le_iff, Position.toNat_prev] at h₂
      have hxlast : x.position ≤ last := by
        rw [Position.le_iff]
        omega
      -- a record of the hole would come before the head of the window
      have hfirst : r.position.toNat ≤ x.position.toNat :=
        le_of_head?_window hr (mem_window.mpr ⟨hx, h₁, hxlast⟩)
      omega
    · rw [Position.toNat_prev]
      omega
  · next hnone =>
    refine ⟨h, Nat.le_refl _, ?_, .inl rfl⟩
    rintro p h₁ h₂ ⟨x, hx, rfl⟩
    have hempty := List.head?_eq_none_iff.mp hnone
    have hmem := mem_window (h := h).mpr ⟨hx, h₁, h₂⟩
    rw [hempty] at hmem
    exact absurd hmem List.not_mem_nil

/-! ## The search -/

/-- The search, with the two walks by their names. -/
theorem gap?_eq (s : Store) (first last : Position) :
    s.gap? first last =
      if h : first ≤ last ∧ last.IsSet then
        if hl : firstAbsent first.toNat (s.window first last h.1) ≤ last.toNat then
          Span.ofBounds? ⟨_, Nat.lt_of_le_of_lt hl last.toNat_lt⟩
            (s.gapEnd ⟨_, Nat.lt_of_le_of_lt hl last.toNat_lt⟩ last hl)
        else none
      else none := rfl

/-- The search finds the first hole of a window that has one, and nothing in any other. -/
theorem gap?_cases (s : Store) (first last : Position) :
    (∃ gap, s.gap? first last = some gap ∧ s.FirstGap first last gap ∧ last.IsSet) ∨
      s.gap? first last = none ∧
        (¬ (first ≤ last ∧ last.IsSet) ∨ ∀ p, first ≤ p → p ≤ last → p ∈ s) := by
  rw [gap?_eq]
  by_cases hb : first ≤ last ∧ last.IsSet
  · rw [dif_pos hb]
    obtain ⟨hge, habsent⟩ := firstAbsent_window (s := s) hb.1
    by_cases hl : firstAbsent first.toNat (s.window first last hb.1) ≤ last.toNat
    · rw [dif_pos hl]
      -- the second walk begins at the first absent position
      have hlower : (⟨_, Nat.lt_of_le_of_lt hl last.toNat_lt⟩ : Position) ≤ last := hl
      obtain ⟨hle, hend, hnot, hends⟩ := s.gapEnd_spec hlower (habsent _ rfl hl)
      have hset : (s.gapEnd _ last hlower).IsSet :=
        Position.isSet_iff.mpr (Nat.le_trans hend (Position.isSet_iff.mp hb.2))
      exact .inl ⟨_, Span.ofBounds?_eq_some.mpr ⟨rfl, hle, hset⟩,
        ⟨hge, hle, hend, fun p h₁ h₂ => held_of_lt_firstAbsent hb.1 h₁ h₂,
          fun p hp => hnot p hp.1 hp.2, hends⟩, hb.2⟩
    -- the first walk went through to the end of the window
    · rw [dif_neg hl]
      refine .inr ⟨rfl, .inr fun p h₁ h₂ => held_of_lt_firstAbsent hb.1 h₁ ?_⟩
      exact Nat.lt_of_le_of_lt h₂ (Nat.lt_of_not_le hl)
  · rw [dif_neg hb]
    exact .inr ⟨rfl, .inl hb⟩

/-- What is found is the first hole, and its bounds are places in the stream. -/
theorem firstGap_of_gap? {s : Store} {first last : Position} {gap : Span}
    (h : s.gap? first last = some gap) : s.FirstGap first last gap ∧ gap.last.IsSet := by
  rcases s.gap?_cases first last with ⟨found, hfound, hspec⟩ | ⟨hnone, -⟩
  · rw [h] at hfound
    cases hfound
    exact ⟨hspec.1, Position.isSet_iff.mpr
      (Nat.le_trans hspec.1.le_last (Position.isSet_iff.mp hspec.2))⟩
  · rw [h] at hnone
    cases hnone

/-- Nothing is found exactly when the bounds make no span or every position of it is held. -/
theorem gap?_eq_none_iff {s : Store} {first last : Position} :
    s.gap? first last = none ↔
      ¬ (first ≤ last ∧ last.IsSet) ∨ ∀ p, first ≤ p → p ≤ last → p ∈ s := by
  rcases s.gap?_cases first last with ⟨gap, hsome, hgap, hset⟩ | ⟨hnone, hwhy⟩
  · refine iff_of_false (by simp [hsome]) ?_
    have hin : gap.first ∈ gap := ⟨Nat.le_refl _, hgap.ordered⟩
    have hle : gap.first ≤ last := Nat.le_trans hgap.ordered hgap.le_last
    rintro (hno | hall)
    · exact hno ⟨Nat.le_trans hgap.first_le hle, hset⟩
    · exact hgap.not_held _ hin (hall _ hgap.first_le hle)
  · exact iff_of_true hnone hwhy

/-- The first hole of a window is found if the window has one. -/
theorem gap?_eq_some_iff {s : Store} {first last : Position} {gap : Span} :
    s.gap? first last = some gap ↔ last.IsSet ∧ s.FirstGap first last gap := by
  constructor
  · intro h
    rcases s.gap?_cases first last with ⟨found, hfound, hgap, hset⟩ | ⟨hnone, -⟩
    · rw [Option.some_inj.mp (h.symm.trans hfound)]
      exact ⟨hset, hgap⟩
    · cases h.symm.trans hnone
  · rintro ⟨hset, hgap⟩
    rcases s.gap?_cases first last with ⟨found, hfound, hspec, -⟩ | ⟨-, hwhy⟩
    · rw [hfound, hspec.unique hgap]
    -- the bounds are in order, and the hole is not held
    · have hle : gap.first ≤ last := Nat.le_trans hgap.ordered hgap.le_last
      rcases hwhy with hno | hall
      · exact absurd ⟨Nat.le_trans hgap.first_le hle, hset⟩ hno
      · exact absurd (hall _ hgap.first_le hle) (hgap.not_held _ ⟨Nat.le_refl _, hgap.ordered⟩)

end Logbook.Store
