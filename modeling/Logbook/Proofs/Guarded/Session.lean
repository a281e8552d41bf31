import Logbook.Proofs.Session
import Logbook.Proofs.Store.FirstGap

/-!
# Sessions on machine words

Positions and counts are kept in machine words, and records in a tree whose windows must have their
bounds in order. A sum that does not fit into its word, a difference below zero and a window out of
order each end the program. Here the operations of a session that take such steps are carried out
with every one of them checked, and they are shown to come through with what they come to.

- `Fault`, `Guarded`: what can go wrong, and what may go wrong.
- `Guarded.plus`, `Guarded.minus`, `Guarded.window`: the checked steps.
- `Guarded.request`, `Guarded.gap?`, `Guarded.resumeFrom`, `Guarded.dropped`: the operations.
- `Guarded.request_of_ordered`, `Guarded.gap?_eq`, `Guarded.resumeFrom_eq`, `Guarded.dropped_eq`:
  they come through.
- `Guarded.finds_first_gap`: what the search for a hole comes to.
-/

namespace Logbook

/-- What ends the program. -/
inductive Fault
  /-- A sum does not fit into its word. -/
  | overflow
  /-- A difference is below zero. -/
  | underflow
  /-- The bounds of a window are out of order. -/
  | disordered
deriving DecidableEq

/-- What may end in a fault. -/
abbrev Guarded (α : Type) := Except Fault α

namespace Guarded

/-! ## Checked steps -/

/-- A sum in words below `bound`. -/
def plus (bound a b : Nat) : Guarded Nat := if a + b < bound then .ok (a + b) else .error .overflow

/-- A difference. -/
def minus (a b : Nat) : Guarded Nat := if b ≤ a then .ok (a - b) else .error .underflow

/-- The records from `first` to `last`. -/
def window (s : Store) (first last : Position) : Guarded (List Record) :=
  if h : first ≤ last then .ok (s.window first last h) else .error .disordered

/-- What came through is handed on. -/
@[simp] theorem ok_bind {ε α β : Type} (a : α) (f : α → Except ε β) :
    Except.ok a >>= f = f a := rfl

theorem plus_of_lt {bound a b : Nat} (h : a + b < bound) : plus bound a b = .ok (a + b) := if_pos h

theorem minus_of_le {a b : Nat} (h : b ≤ a) : minus a b = .ok (a - b) := if_pos h

theorem window_of_le (s : Store) {first last : Position} (h : first ≤ last) :
    window s first last = .ok (s.window first last h) := dif_pos h

/-! ## Requests -/

/-- How many positions a span covers; one more than the difference of its bounds, which stops at
the largest word. -/
def size (span : Span) : Guarded Nat := do
  return min ((← minus span.last.toNat span.first.toNat) + 1) 4294967295

/-- Makes a request for a span. The count of the held records is cut to a word. -/
def request (s : Session) (span : Span) (nextCursor : Position) : Guarded Session := do
  let held := (← window s.store span.first span.last).length % 4294967296
  let size ← size span
  let expected ← minus size held
  return { s with
    nextBulk := some span.first
    nextCursor := some nextCursor
    progress := ⟨0, .ofNat expected, .ofNat size⟩
    patience := s.tolerance.ticks }

section Requests

variable {s : Session} {span : Span}

theorem size_of_ordered (h : span.Ordered) (hset : span.last.IsSet) :
    size span = .ok span.size := by
  have hle : span.first.toNat ≤ span.last.toNat := h
  have hlast := Position.isSet_iff.mp hset
  have hsize : min (span.last.toNat - span.first.toNat + 1) 4294967295 = span.size := by
    unfold Span.size
    omega
  unfold size
  rw [minus_of_le hle, ← hsize]
  rfl

/-- A request for a span in order comes through: no more records are held of it than it has
positions. -/
theorem request_of_ordered (h : span.Ordered) (hset : span.last.IsSet) (p : Position) :
    request s span p = .ok (s.asked span p) := by
  have hle : span.first ≤ span.last := h
  have hlast := Position.isSet_iff.mp hset
  have hheld : (s.store.window span.first span.last hle).length ≤ span.size := by
    rw [Store.length_window, ← Span.card_numbers]
    exact Finset.card_le_card Finset.inter_subset_left
  have hword : (s.store.window span.first span.last hle).length % 4294967296 =
      (s.store.window span.first span.last hle).length := by
    unfold Span.size at hheld
    apply Nat.mod_eq_of_lt
    omega
  unfold request
  rw [window_of_le s.store hle, ok_bind, size_of_ordered h hset, ok_bind, hword,
    minus_of_le hheld, ok_bind, s.store.size_sub_window span hle]
  rfl

end Requests

/-! ## Holes -/

/-- Walks over ascending records while they come without a hole, and says whether a record was left.
The number of the next position is kept in a word of twice the size. -/
def scan (n : Nat) : List Record → Guarded (Nat × Bool)
  | [] => .ok (n, false)
  | r :: rest => do
    if r.position.toNat = n then scan (← plus 18446744073709551616 n 1) rest else return (n, true)

/-- The first run of missing positions from `first` to `last`. The walk stops at a record, or it
goes on to the end. -/
def gap? (s : Store) (first last : Position) : Guarded (Option Span) := do
  if first ≤ last ∧ last.IsSet then
    let (lower, stopped) ← scan first.toNat (← window s first last)
    if stopped ∨ lower ≤ last.toNat then
      let lower : Position := ⟨lower % 4294967296, Nat.mod_lt _ (by decide)⟩
      let upper := match (← window s lower last).head? with
        | some r => r.position.prev
        | none => last
      return Span.ofBounds? lower upper
    else return none
  else return none

section Holes

variable {s : Store} {first last : Position}

/-- The walk comes through, and a record is left above where it stopped, or none. -/
theorem scan_eq {l : List Record} (hl : l.Pairwise (·.position < ·.position)) {n : Nat}
    (hn : ∀ r ∈ l, n ≤ r.position.toNat) :
    ∃ stopped, scan n l = .ok (Store.firstAbsent n l, stopped) ∧
      (stopped = true → ∃ r ∈ l, Store.firstAbsent n l < r.position.toNat) := by
  induction l generalizing n with
  | nil => exact ⟨false, rfl, fun h => by cases h⟩
  | cons x rest ih =>
    obtain ⟨hx, hrest⟩ := List.pairwise_cons.mp hl
    have hxn := hn x List.mem_cons_self
    unfold scan Store.firstAbsent
    by_cases heq : x.position.toNat = n
    · have habove : ∀ r ∈ rest, n + 1 ≤ r.position.toNat := by
        intro r hr
        have hlt : x.position.toNat < r.position.toNat := hx r hr
        omega
      obtain ⟨stopped, hscan, hleft⟩ := ih hrest habove
      have hword := x.position.toNat_lt
      rw [if_pos heq, if_pos heq, plus_of_lt (by omega)]
      refine ⟨stopped, hscan, fun h => ?_⟩
      obtain ⟨r, hr, hlt⟩ := hleft h
      exact ⟨r, List.mem_cons_of_mem _ hr, hlt⟩
    · rw [if_neg heq, if_neg heq]
      exact ⟨true, rfl, fun _ => ⟨x, List.mem_cons_self, by omega⟩⟩

/-- The search for a hole comes through. -/
theorem gap?_eq (s : Store) (first last : Position) :
    gap? s first last = .ok (s.gap? first last) := by
  unfold gap?
  rw [Store.gap?_eq]
  by_cases hb : first ≤ last ∧ last.IsSet
  · obtain ⟨stopped, hscan, hleft⟩ := scan_eq (s.pairwise_window hb.1) (n := first.toNat)
      fun r hr => (Store.mem_window.mp hr).2.1
    rw [if_pos hb, dif_pos hb, window_of_le s hb.1, ok_bind, hscan, ok_bind]
    -- the walk stops at a record of the window only below its end
    have hstop : stopped = true ∨ Store.firstAbsent first.toNat (s.window first last hb.1) ≤
        last.toNat ↔ Store.firstAbsent first.toNat (s.window first last hb.1) ≤ last.toNat := by
      refine or_iff_right_of_imp fun h => ?_
      obtain ⟨r, hr, hlt⟩ := hleft h
      have hle : r.position.toNat ≤ last.toNat := (Store.mem_window.mp hr).2.2
      omega
    dsimp only
    rw [if_congr hstop rfl rfl]
    by_cases hl : Store.firstAbsent first.toNat (s.window first last hb.1) ≤ last.toNat
    · have hword : Store.firstAbsent first.toNat (s.window first last hb.1) % 4294967296 =
          Store.firstAbsent first.toNat (s.window first last hb.1) := by
        have hlast := last.toNat_lt
        apply Nat.mod_eq_of_lt
        omega
      rw [if_pos hl, dif_pos hl]
      simp only [hword]
      rw [window_of_le s (by exact hl), ok_bind]
      rfl
    · rw [if_neg hl, dif_neg hl]
      rfl
  · rw [if_neg hb, dif_neg hb]
    rfl

/-- **The search for a hole is exact**, whatever is held and whichever window is searched. It comes
through on machine words. It finds nothing just when the bounds make no span or all of it is held,
and otherwise the run that begins at the least position of the window that is not held, and goes on
to the end of the window or to the next record. -/
theorem finds_first_gap (s : Store) (first last : Position) :
    gap? s first last = .ok (s.gap? first last) ∧
      (s.gap? first last = none ↔
        last < first ∨ ¬ last.IsSet ∨ ∀ p, first ≤ p → p ≤ last → p ∈ s) ∧
      ∀ gap, s.gap? first last = some gap ↔ last.IsSet ∧ s.FirstGap first last gap := by
  refine ⟨gap?_eq s first last, ?_, fun gap => Store.gap?_eq_some_iff⟩
  have hdisordered : ¬ first ≤ last ↔ last < first := Nat.not_le
  rw [Store.gap?_eq_none_iff, not_and_or, hdisordered, or_assoc]

end Holes

/-! ## The begin of a request -/

/-- The last position that is reached from `p` on without a hole. -/
def runEnd (p : Position) : List Record → Guarded Position
  | [] => .ok p
  | r :: rest => do
    if r.position.toNat = (← plus 4294967296 p.toNat 1) then runEnd r.position rest else return p

/-- Where a request for all positions from `first` on begins. -/
def resumeFrom (s : Store) (first : Position) : Guarded Position :=
  match s.records with
  | [] => .ok first
  | r :: rest =>
    if r.position ≤ first then do return max (← runEnd r.position rest).next first
    else .ok first

theorem runEnd_eq {p : Position} {l : List Record} (hp : p.IsSet)
    (hl : ∀ r ∈ l, r.position.IsSet) : runEnd p l = .ok (Store.runEnd p l) := by
  induction l generalizing p with
  | nil => rfl
  | cons x rest ih =>
    have hle := Position.isSet_iff.mp hp
    unfold runEnd Store.runEnd
    rw [plus_of_lt (by omega), ok_bind]
    split
    · exact ih (hl x List.mem_cons_self) fun r hr => hl r (List.mem_cons_of_mem _ hr)
    · rfl

/-- The search for the begin of a request comes through as long as the unset mark is not held. -/
theorem resumeFrom_eq {s : Store} (h : ∀ p ∈ s, p.IsSet) (first : Position) :
    resumeFrom s first = .ok (s.resumeFrom first) := by
  obtain ⟨records, hascending⟩ := s
  have hset : ∀ r ∈ records, r.position.IsSet := fun r hr => h _ ⟨r, hr, rfl⟩
  unfold resumeFrom Store.resumeFrom
  cases records with
  | nil => rfl
  | cons x rest =>
    dsimp only
    split
    · rw [runEnd_eq (hset x List.mem_cons_self) fun r hr => hset r (List.mem_cons_of_mem _ hr)]
      rfl
    · rfl

/-- If it were held, the sum would not fit. -/
example : runEnd .unset [⟨.zero, []⟩] = .error .overflow := by decide

/-! ## Snapshots -/

/-- How many positions of the span of a snapshot have no record. The number of records is cut to a
word, and the difference stops at zero. -/
def dropped (status : Status) : Guarded Nat :=
  match status.span? with
  | some span => do return (← size span) - status.count.toNat % 4294967296
  | none => .ok 0

/-- The count of what is missing comes through. -/
theorem dropped_eq (status : Status) : dropped status = .ok status.dropped := by
  unfold dropped Status.dropped
  cases hspan : status.span? with
  | none => rfl
  | some span =>
    have hbounds : span.Ordered ∧ span.last.IsSet := by
      unfold Status.span? at hspan
      split at hspan
      · obtain ⟨rfl, hle, hset⟩ := Span.ofBounds?_eq_some.mp hspan
        exact ⟨hle, hset⟩
      · cases hspan
    dsimp only
    rw [size_of_ordered hbounds.1 hbounds.2]
    rfl

end Guarded

end Logbook
