import Logbook.Session.Receive
import Logbook.Session.Request
import Logbook.Proofs.Store.Missing

/-!
# What the operations of a session change

Each operation on a session is told here by what it does to the store, to the accounts and to
the two expectations, so that no later proof has to open it.

- `Session.asked`: a session with a request out, with the accounts told from the positions that
  are missing; `Session.request_of_ordered`: a request for a span in order gives just that.
- `Session.Accepts`: the session stores a record of the cursor channel.
- `Session.store_receiveCursor`, `Session.store_receiveBulk`: what becomes of the store.
- `Session.transferred_receiveBulk`: a record of the bulk channel is counted once, when it is new.
-/

namespace Logbook.Session

/-! ## Requests -/

/-- The session with a request for `span` out, after which the cursor channel goes on at
`nextCursor`. -/
def asked (s : Session) (span : Span) (nextCursor : Position) : Session :=
  { s with
    nextBulk := some span.first
    nextCursor := some nextCursor
    progress := ⟨0, .ofNat (s.store.missing span).card, .ofNat span.size⟩
    patience := s.tolerance.ticks }

@[simp] theorem store_asked (s : Session) (span : Span) (p : Position) :
    (s.asked span p).store = s.store := rfl

@[simp] theorem progress_asked (s : Session) (span : Span) (p : Position) :
    (s.asked span p).progress = ⟨0, .ofNat (s.store.missing span).card, .ofNat span.size⟩ := rfl

/-- A request for a span in order succeeds. -/
theorem request_of_ordered {s : Session} {span : Span} (h : span.Ordered) (p : Position) :
    s.request span p = .ok (s.asked span p) := by
  have hle : span.first ≤ span.last := h
  unfold request
  rw [dif_pos hle, withRequest, s.store.size_sub_window span hle]
  rfl

/-- A request expects what is missing of its span. -/
theorem expected_asked {s : Session} {span : Span} (hset : span.last.IsSet) (p : Position) :
    (s.asked span p).progress.expected.toNat = (s.store.missing span).card := by
  rw [progress_asked, Counter.toNat_ofNat, Nat.min_eq_left]
  exact Nat.le_trans (s.store.card_missing_le span) (Span.size_le hset)

/-- A request tells the size of its span. -/
theorem requested_asked {s : Session} {span : Span} (hset : span.last.IsSet) (p : Position) :
    (s.asked span p).progress.requested.toNat = span.size := by
  rw [progress_asked, Counter.toNat_ofNat, Nat.min_eq_left (Span.size_le hset)]

/-! ## The end of a request -/

@[simp] theorem id_finish (s : Session) : s.finish.id = s.id := rfl

@[simp] theorem id_forgetCursor (s : Session) : s.forgetCursor.id = s.id := rfl

@[simp] theorem store_finish (s : Session) : s.finish.store = s.store := rfl

@[simp] theorem nextCursor_finish (s : Session) : s.finish.nextCursor = s.nextCursor := rfl

@[simp] theorem store_forgetCursor (s : Session) : s.forgetCursor.store = s.store := rfl

/-! ## New sessions -/

@[simp] theorem store_anchor (s : Session) (p : Position) (now : Instant) :
    (s.anchor p now).store = s.store := by
  unfold anchor
  split <;> rfl

@[simp] theorem nextCursor_anchor (s : Session) (p : Position) (now : Instant) :
    (s.anchor p now).nextCursor = s.nextCursor := by
  unfold anchor
  split <;> rfl

@[simp] theorem tolerance_anchor (s : Session) (p : Position) (now : Instant) :
    (s.anchor p now).tolerance = s.tolerance := by
  unfold anchor
  split <;> rfl

@[simp] theorem patience_anchor (s : Session) (p : Position) (now : Instant) :
    (s.anchor p now).patience = s.patience := by
  unfold anchor
  split <;> rfl

@[simp] theorem progress_anchor (s : Session) (p : Position) (now : Instant) :
    (s.anchor p now).progress = s.progress := by
  unfold anchor
  split <;> rfl

/-! ## Records from the cursor channel -/

/-- The session stores a record of the cursor channel: it has a place in the stream, which is not
behind the expectation. -/
def Accepts (s : Session) (r : Record) : Prop :=
  r.position.IsSet ∧ s.expectedCursor r.position ≤ r.position

instance (s : Session) (r : Record) : Decidable (s.Accepts r) := by
  unfold Accepts
  infer_instance

/-- A record is taken as it is asked for, or it only costs a tick. -/
theorem receiveCursor_eq (s : Session) (r : Record) :
    s.receiveCursor r =
      if s.Accepts r then
        { s with
          patience := Counter.pred s.patience
          store := s.store.insert r
          nextCursor := some r.position.next }
      else { s with patience := Counter.pred s.patience } := by
  have hexpected : ({ s with patience := Counter.pred s.patience } : Session).expectedCursor
      r.position = s.expectedCursor r.position := rfl
  unfold receiveCursor Accepts
  by_cases hset : r.position.IsSet
  · by_cases hbehind : r.position < s.expectedCursor r.position
    · have hnot : ¬ s.expectedCursor r.position ≤ r.position := Nat.not_le.mpr hbehind
      simp only [hexpected, hset, hbehind, hnot, if_true, and_false, if_false]
    · have hle : s.expectedCursor r.position ≤ r.position := Nat.not_lt.mp hbehind
      simp only [hexpected, hset, hbehind, hle, if_true, and_true, if_false]
  · simp only [hset, if_false, false_and]

@[simp] theorem id_receiveCursor (s : Session) (r : Record) : (s.receiveCursor r).id = s.id := by
  rw [receiveCursor_eq]
  split <;> rfl

@[simp] theorem tolerance_receiveCursor (s : Session) (r : Record) :
    (s.receiveCursor r).tolerance = s.tolerance := by
  rw [receiveCursor_eq]
  split <;> rfl

/-- Every record of the cursor channel takes a tick. -/
@[simp] theorem patience_receiveCursor (s : Session) (r : Record) :
    (s.receiveCursor r).patience = Counter.pred s.patience := by
  rw [receiveCursor_eq]
  split <;> rfl

@[simp] theorem progress_receiveCursor (s : Session) (r : Record) :
    (s.receiveCursor r).progress = s.progress := by
  rw [receiveCursor_eq]
  split <;> rfl

@[simp] theorem nextBulk_receiveCursor (s : Session) (r : Record) :
    (s.receiveCursor r).nextBulk = s.nextBulk := by
  rw [receiveCursor_eq]
  split <;> rfl

theorem store_receiveCursor (s : Session) (r : Record) :
    (s.receiveCursor r).store = if s.Accepts r then s.store.insert r else s.store := by
  rw [receiveCursor_eq]
  split <;> rfl

theorem nextCursor_receiveCursor (s : Session) (r : Record) :
    (s.receiveCursor r).nextCursor =
      if s.Accepts r then some r.position.next else s.nextCursor := by
  rw [receiveCursor_eq]
  split <;> rfl

/-- An expectation of the cursor channel is never forgotten over a record. -/
theorem isSome_nextCursor_receiveCursor {s : Session} (h : s.nextCursor.isSome) (r : Record) :
    (s.receiveCursor r).nextCursor.isSome := by
  rw [nextCursor_receiveCursor]
  split
  · rfl
  · exact h

/-! ## Records from the bulk channel -/

@[simp] theorem id_receiveBulk (s : Session) (r : Record) : (s.receiveBulk r).id = s.id := by
  unfold receiveBulk
  split <;> rfl

@[simp] theorem tolerance_receiveBulk (s : Session) (r : Record) :
    (s.receiveBulk r).tolerance = s.tolerance := by
  unfold receiveBulk
  split <;> rfl

/-- A record at the unset mark is dropped. -/
theorem receiveBulk_of_unset {s : Session} {r : Record} (h : ¬ r.position.IsSet) :
    s.receiveBulk r = s := if_neg h

@[simp] theorem nextCursor_receiveBulk (s : Session) (r : Record) :
    (s.receiveBulk r).nextCursor = s.nextCursor := by
  unfold receiveBulk
  split <;> rfl

theorem store_receiveBulk (s : Session) (r : Record) :
    (s.receiveBulk r).store = if r.position.IsSet then s.store.insert r else s.store := by
  unfold receiveBulk
  split <;> rfl

theorem store_receiveBulk_of_isSet (s : Session) {r : Record} (h : r.position.IsSet) :
    (s.receiveBulk r).store = s.store.insert r := by
  rw [store_receiveBulk, if_pos h]

theorem patience_receiveBulk (s : Session) (r : Record) :
    (s.receiveBulk r).patience =
      if r.position.IsSet then s.tolerance.ticks else s.patience := by
  unfold receiveBulk
  split <;> rfl

/-- While a record is expected on the bulk channel, the one that comes keeps it so. -/
theorem isSome_nextBulk_receiveBulk {s : Session} (h : s.nextBulk.isSome) (r : Record) :
    (s.receiveBulk r).nextBulk.isSome := by
  unfold receiveBulk
  split
  · rfl
  · exact h

@[simp] theorem expected_receiveBulk (s : Session) (r : Record) :
    (s.receiveBulk r).progress.expected = s.progress.expected := by
  unfold receiveBulk
  split
  · show (if r.position ∈ s.store then s.progress else _).expected = _
    split <;> rfl
  · rfl

@[simp] theorem requested_receiveBulk (s : Session) (r : Record) :
    (s.receiveBulk r).progress.requested = s.progress.requested := by
  unfold receiveBulk
  split
  · show (if r.position ∈ s.store then s.progress else _).requested = _
    split <;> rfl
  · rfl

/-- A record is counted when it has a place in the stream that was not held. -/
theorem transferred_receiveBulk (s : Session) (r : Record) :
    (s.receiveBulk r).progress.transferred =
      if r.position.IsSet ∧ r.position ∉ s.store then Counter.succ s.progress.transferred
      else s.progress.transferred := by
  unfold receiveBulk
  by_cases hset : r.position.IsSet
  · by_cases hheld : r.position ∈ s.store
    · simp only [hset, hheld, if_true, not_true, and_false, if_false]
    · simp only [hset, hheld, if_true, not_false_eq_true, and_true, if_false]
  · simp only [hset, if_false, false_and]

end Logbook.Session
