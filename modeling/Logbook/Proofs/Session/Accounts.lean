import Logbook.Proofs.Session
import Logbook.Rehearsal.Script

/-!
# The accounts of a request that is out

A request expects what is missing of its span, and counts what the bulk channel brings. The count
is right as long as the bulk channel brings nothing but answers and the cursor channel stays out of
the span. It does, if it was to go on above the span when the request was made, because from there
on its expectation only moves past records that are stored.

- `Session.Accounts`: what came and what is missing of a span is what was expected of it.
- `Session.Follows`: the expectation is a given position or past a record that is held.
- `Arrival`, `Session.receiveAll`: records of both channels, in the order in which they come.
- `Session.LeftToBulk`: the accounts are kept, and all of the span is left to the bulk channel.
- `Session.LeftToBulk.receiveAll`: records of both channels leave it so.
- `Session.exact_under_interleaving`: however they interleave, the accounts are exact.
-/

namespace Logbook

open Rehearsal Script

namespace Session

variable {s : Session} {span : Span} {base : Position} {x : Record}

/-! ## What is counted -/

/-- What came and what is missing of a span is what was expected of it. -/
def Accounts (s : Session) (gap : Span) : Prop :=
  s.progress.transferred.toNat + (s.store.missing gap).card = s.progress.expected.toNat

theorem accounts_asked (hset : span.last.IsSet) (p : Position) : (s.asked span p).Accounts span := by
  rw [Accounts, expected_asked hset]
  exact Nat.zero_add _

/-- An answer keeps the accounts. -/
theorem Accounts.receiveBulk (h : s.Accounts span) (hx : x.position ∈ span)
    (hset : x.position.IsSet) : (s.receiveBulk x).Accounts span := by
  have hbound := s.progress.expected.toNat_lt
  have hmissing := s.store.card_missing_insert x span
  unfold Accounts at h ⊢
  rw [store_receiveBulk_of_isSet s hset, expected_receiveBulk, transferred_receiveBulk]
  by_cases hheld : x.position ∈ s.store
  · rw [if_neg fun hnew => hnew.2 hheld] at hmissing ⊢
    omega
  -- something is missing, so the counter is below another one and does not saturate
  · rw [if_pos ⟨hx, hheld⟩] at hmissing
    rw [if_pos ⟨hset, hheld⟩, Counter.toNat_succ]
    omega

/-- The accounts are complete exactly when all of the span is held. -/
theorem Accounts.isComplete_iff (h : s.Accounts span) :
    s.progress.isComplete ↔ s.store.Covers span := by
  unfold Accounts at h
  rw [Progress.isComplete, decide_eq_true_iff, UInt32.le_iff_toNat_le, Store.covers_iff,
    ← Finset.card_eq_zero]
  omega

/-! ## Where the cursor channel goes on -/

/-- The cursor channel goes on at `base`, or past a record that is held and not below. -/
def Follows (s : Session) (base : Position) : Prop :=
  ∃ e, s.nextCursor = some e ∧ base ≤ e ∧ (e = base ∨ ∃ p ∈ s.store, e = p.next)

namespace Follows

/-- What is stored is not below the position that the cursor channel began with. -/
theorem le_of_accepts (h : s.Follows base) (hx : s.Accepts x) : base ≤ x.position := by
  obtain ⟨e, he, hle, -⟩ := h
  obtain ⟨-, hahead⟩ := hx
  unfold expectedCursor at hahead
  rw [he] at hahead
  exact Nat.le_trans hle hahead

theorem receiveCursor (h : s.Follows base) (x : Record) : (s.receiveCursor x).Follows base := by
  unfold Follows
  rw [nextCursor_receiveCursor, store_receiveCursor]
  by_cases hx : s.Accepts x
  · rw [if_pos hx, if_pos hx]
    refine ⟨_, rfl, ?_, .inr ⟨x.position, Store.mem_insert.mpr (.inl rfl), rfl⟩⟩
    have hle := Position.le_iff.mp (h.le_of_accepts hx)
    have hset := Position.isSet_iff.mp hx.1
    rw [Position.le_iff, Position.toNat_next]
    omega
  · rw [if_neg hx, if_neg hx]
    exact h

theorem receiveBulk (h : s.Follows base) (x : Record) : (s.receiveBulk x).Follows base := by
  obtain ⟨e, he, hle, hreached⟩ := h
  refine ⟨e, ?_, hle, hreached.imp_right ?_⟩
  · rw [nextCursor_receiveBulk]
    exact he
  · rintro ⟨p, hp, rfl⟩
    refine ⟨p, ?_, rfl⟩
    rw [store_receiveBulk]
    split
    · exact Store.mem_insert.mpr (.inr hp)
    · exact hp

/-- A record above all that is held, and not below where the channel began, is stored. -/
theorem accepts (h : s.Follows base) (hset : x.position.IsSet) (hbase : base ≤ x.position)
    (habove : ∀ p ∈ s.store, p < x.position) : s.Accepts x := by
  obtain ⟨e, he, -, hreached⟩ := h
  refine ⟨hset, ?_⟩
  unfold expectedCursor
  rw [he]
  rcases hreached with rfl | ⟨p, hp, rfl⟩
  · exact hbase
  · have hlt := Position.lt_iff.mp (habove p hp)
    show p.next ≤ x.position
    rw [Position.le_iff, Position.toNat_next]
    omega

end Follows

end Session

/-! ## Records of both channels -/

/-- A record that comes, and the channel that brings it. -/
inductive Arrival
  | bulk (x : Record)
  | cursor (x : Record)
deriving DecidableEq

/-- What the bulk channel brings is of the span, or at the unset mark. The cursor channel may bring
anything. -/
def Arrival.Answers (span : Span) : Arrival → Prop
  | .bulk x => x.position ∈ span ∨ ¬ x.position.IsSet
  | .cursor _ => True

instance (span : Span) : (a : Arrival) → Decidable (a.Answers span)
  | .bulk x => inferInstanceAs (Decidable (x.position ∈ span ∨ ¬ x.position.IsSet))
  | .cursor _ => inferInstanceAs (Decidable True)

namespace Session

variable {s : Session} {span : Span} {p : Position} {x : Record}

/-- Takes a record from its channel. -/
def receive (s : Session) : Arrival → Session
  | .bulk x => s.receiveBulk x
  | .cursor x => s.receiveCursor x

/-- Takes records of both channels, in the order in which they come. -/
def receiveAll (s : Session) (arrivals : List Arrival) : Session := arrivals.foldl receive s

/-- A request for the span is out that keeps its accounts, and all of the span is left to the bulk
channel, because the cursor channel goes on above it. -/
structure LeftToBulk (s : Session) (span : Span) : Prop where
  accounts : s.Accounts span
  requested : s.progress.requested.toNat = span.size
  above : ∃ base, s.Follows base ∧ span.last < base

/-- A request leaves its span to the bulk channel if the cursor channel is to go on above. -/
theorem leftToBulk_asked (hset : span.last.IsSet) (hp : span.last < p) :
    (s.asked span p).LeftToBulk span where
  accounts := accounts_asked hset p
  requested := requested_asked hset p
  above := ⟨p, ⟨p, rfl, Nat.le_refl _, .inl rfl⟩, hp⟩

namespace LeftToBulk

/-- What the cursor channel brings is stored above the span only. -/
theorem not_mem_of_accepts (h : s.LeftToBulk span) (hx : s.Accepts x) : x.position ∉ span := by
  obtain ⟨base, hbase, hlast⟩ := h.above
  intro hin
  exact absurd (Nat.le_trans (hbase.le_of_accepts hx) hin.2) (Nat.not_le.mpr hlast)

/-- The cursor channel neither adds nor replaces a record of the span. -/
theorem get?_receiveCursor (h : s.LeftToBulk span) (hp : p ∈ span) (x : Record) :
    (s.receiveCursor x).store.get? p = s.store.get? p := by
  rw [store_receiveCursor]
  split
  · next hx =>
    rw [Store.get?_insert, if_neg]
    rintro rfl
    exact h.not_mem_of_accepts hx hp
  · rfl

theorem receiveCursor (h : s.LeftToBulk span) (x : Record) :
    (s.receiveCursor x).LeftToBulk span where
  accounts := by
    have hmissing : (s.receiveCursor x).store.missing span = s.store.missing span := by
      rw [store_receiveCursor]
      split
      · next hx =>
        rw [Store.missing_insert, Finset.erase_eq_of_notMem]
        exact fun hm => h.not_mem_of_accepts hx (Store.mem_missing.mp hm).1
      · rfl
    unfold Accounts
    rw [progress_receiveCursor, hmissing]
    exact h.accounts
  requested := by
    rw [progress_receiveCursor]
    exact h.requested
  above := by
    obtain ⟨base, hbase, hlast⟩ := h.above
    exact ⟨base, hbase.receiveCursor x, hlast⟩

theorem receiveBulk (h : s.LeftToBulk span) (hx : x.position ∈ span ∨ ¬ x.position.IsSet) :
    (s.receiveBulk x).LeftToBulk span := by
  by_cases hset : x.position.IsSet
  · obtain ⟨base, hbase, hlast⟩ := h.above
    refine ⟨?_, ?_, base, hbase.receiveBulk x, hlast⟩
    · exact h.accounts.receiveBulk (hx.resolve_right fun hunset => hunset hset) hset
    · rw [requested_receiveBulk]
      exact h.requested
  · rw [receiveBulk_of_unset hset]
    exact h

/-- **Records of both channels leave it so**, whatever their order. -/
theorem receiveAll (h : s.LeftToBulk span) {arrivals : List Arrival}
    (hanswers : ∀ a ∈ arrivals, a.Answers span) : (s.receiveAll arrivals).LeftToBulk span := by
  induction arrivals generalizing s with
  | nil => exact h
  | cons a rest ih =>
    obtain ⟨ha, hrest⟩ := List.forall_mem_cons.mp hanswers
    cases a with
    | bulk x => exact ih (h.receiveBulk ha) hrest
    | cursor x => exact ih (h.receiveCursor x) hrest

end LeftToBulk

/-! ## The accounts while a request is out -/

/-- The accounts of a request tell its span as it is. -/
structure Exact (s : Session) (span : Span) : Prop where
  requested : s.progress.requested.toNat = span.size
  /-- No more has come than was expected. -/
  within : s.progress.transferred ≤ s.progress.expected
  /-- What is expected yet is what is missing. -/
  remaining : (s.progress.expected - s.progress.transferred).toNat = (s.store.missing span).card
  complete : s.progress.isComplete ↔ s.store.Covers span
  /-- Whatever the cursor channel brings next, it neither adds nor replaces a record of the span. -/
  untouched : ∀ x, ∀ p ∈ span, (s.receiveCursor x).store.get? p = s.store.get? p

theorem LeftToBulk.exact (h : s.LeftToBulk span) : s.Exact span := by
  have haccounts : s.progress.transferred.toNat + (s.store.missing span).card =
      s.progress.expected.toNat := h.accounts
  have hwithin : s.progress.transferred ≤ s.progress.expected := by
    rw [UInt32.le_iff_toNat_le]
    omega
  refine ⟨h.requested, hwithin, ?_, h.accounts.isComplete_iff, fun x p hp =>
    h.get?_receiveCursor hp x⟩
  rw [UInt32.toNat_sub_of_le _ _ hwithin]
  omega

/-- **The accounts of a request are exact, however records of both channels interleave.** Whatever
a session holds, a request for a span can be made, for a transfer as for a hole at which the cursor
channel stands or which it has passed. Whatever the cursor channel then brings, and whatever answers
the bulk channel brings, what is expected yet is what is missing of the span, so that the request is
complete just when all of it is held; and the cursor channel stays out of the span. -/
theorem exact_under_interleaving (s : Session) {span : Span} (hordered : span.Ordered)
    (hlast : span.last < .last) :
    (∃ t, s.requestTransfer span = .ok t ∧
        ∀ arrivals, (∀ a ∈ arrivals, a.Answers span) → (t.receiveAll arrivals).Exact span) ∧
      ∀ cursor, span.last ≤ cursor → ∃ t, s.requestBackfill span cursor = .ok t ∧
        ∀ arrivals, (∀ a ∈ arrivals, a.Answers span) → (t.receiveAll arrivals).Exact span := by
  have hbelow : span.last.toNat < 4294967294 := hlast
  have hset : span.last.IsSet := Position.isSet_iff.mpr (Nat.le_of_lt hbelow)
  have hexact {p : Position} (hp : span.last < p) {arrivals : List Arrival}
      (hanswers : ∀ a ∈ arrivals, a.Answers span) :
      ((s.asked span p).receiveAll arrivals).Exact span :=
    ((leftToBulk_asked hset hp).receiveAll hanswers).exact
  constructor
  · have hnext : span.last < span.last.next := by
      rw [Position.lt_iff, Position.toNat_next]
      omega
    exact ⟨_, request_of_ordered hordered _, fun _ => hexact hnext⟩
  · intro cursor hcursor
    have hnext : span.last < cursor.next := by
      rw [Position.le_iff] at hcursor
      rw [Position.lt_iff, Position.toNat_next]
      omega
    exact ⟨_, request_of_ordered hordered _, fun _ => hexact hnext⟩

/-- A session of the usual device that holds the records at 1 and 7. -/
def withTwoRecords : Session :=
  ((begin Device.standard.info .standard).receiveBulk (Device.record (pos 1))).receiveBulk
    (Device.record (pos 7))

/-- The cursor channel brings a record of the span, one above it and the unset mark; the bulk channel
brings two answers, one of them twice, and the unset mark. -/
def bothChannels : List Arrival :=
  [.bulk (Device.record (pos 3)), .cursor (Device.record (pos 2)),
    .cursor (Device.record (pos 9)), .bulk (Device.record (pos 0)),
    .cursor (Device.record .unset), .bulk (Device.record (pos 3)),
    .bulk (Device.record .unset)]

/-- Of the positions 0 to 3 one is missing in the end. -/
theorem exact_of_both_channels :
    (Script.span 0 3).Ordered ∧ (Script.span 0 3).last < .last ∧ (Script.span 0 3).last ≤ pos 8 ∧
      (∀ a ∈ bothChannels, a.Answers (Script.span 0 3)) ∧
      (∃ t, withTwoRecords.requestTransfer (Script.span 0 3) = .ok t ∧
        (t.receiveAll bothChannels).progress = ⟨2, 3, 4⟩ ∧
        (t.receiveAll bothChannels).Exact (Script.span 0 3)) ∧
      ∃ t, withTwoRecords.requestBackfill (Script.span 0 3) (pos 8) = .ok t ∧
        (t.receiveAll bothChannels).progress = ⟨2, 3, 4⟩ ∧
        (t.receiveAll bothChannels).Exact (Script.span 0 3) := by
  have hanswers : ∀ a ∈ bothChannels, a.Answers (Script.span 0 3) := by decide
  have hordered : (Script.span 0 3).Ordered := by decide
  obtain ⟨⟨t, ht, htransfer⟩, hbackfill⟩ :=
    exact_under_interleaving withTwoRecords hordered (by decide)
  obtain ⟨u, hu, hbackfill⟩ := hbackfill (pos 8) (by decide)
  refine ⟨hordered, by decide, by decide, hanswers, ⟨t, ht, ?_, htransfer _ hanswers⟩,
    u, hu, ?_, hbackfill _ hanswers⟩
  · cases ht
    decide
  · cases hu
    decide

end Session

end Logbook
