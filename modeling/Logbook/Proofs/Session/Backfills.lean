import Logbook.Proofs.Session.Accounts
import Logbook.Proofs.Session.Merge
import Logbook.Proofs.Session.Operations
import Logbook.Proofs.Store.Counting
import Logbook.Proofs.Store.FirstGap

/-!
# Filling the holes of a window

The search finds the first hole of a window only, so it is repeated: as long as it finds one, the
hole is asked for, its records come over the bulk channel, and the request is finished. What is
missing of the window gets less with every hole, so this comes to an end, and every hole has been
found once.

- `Session.Answers`: records for all positions of a span, in any order.
- `Session.Round`, `Session.Fills`: one pass of the loop, and the loop.
- `Session.Fills.unique`, `Session.exists_fills`: the loop goes one way only, and it ends.
- `Session.Round.Accounted`: the accounts of a pass are right after each of its records.
- `Session.Enumerates`: every hole is found once, in ascending order, and nothing else changes.
- `Session.fills_every_hole_once`: all of this together.
-/

namespace Logbook

open Rehearsal Script

/-! ## Positions of a span -/

/-- The first positions of a span have consecutive numbers. -/
theorem Span.positions_eq (span : Span) (limit : ℕ) :
    span.positions limit =
      (List.range' span.first.toNat (min limit span.size)).filterMap Position.ofNat? := by
  rw [List.range'_eq_map_range, List.filterMap_map]
  rfl

/-- All of the positions of a span. -/
theorem Span.mem_positions {span : Span} {p : Position} :
    p ∈ span.positions span.size ↔ p ∈ span := by
  rw [positions_eq, Position.mem_filterMap_ofNat?, Nat.min_self, List.mem_range'_1, mem_iff]
  unfold size
  omega

/-- Each of them once. -/
theorem Span.nodup_positions (span : Span) (limit : ℕ) : (span.positions limit).Nodup := by
  rw [positions_eq]
  refine (Position.pairwise_filterMap_ofNat? List.pairwise_lt_range').imp fun hlt he => ?_
  exact Nat.ne_of_lt hlt (congrArg Position.toNat he)

namespace Session

/-! ## The loop -/

/-- Records that answer a request for a span: one for each of its positions, in any order. -/
structure Answers (gap : Span) where
  records : List Record
  nodup : (records.map (·.position)).Nodup
  mem_iff : ∀ p, p ∈ records.map (·.position) ↔ p ∈ gap

/-- The records that a device of a rehearsal has for a span, in ascending order. -/
def Answers.ascending (gap : Span) : Answers gap where
  records := (gap.positions gap.size).map Device.record
  nodup := by
    rw [List.map_map]
    exact (List.map_id _).symm ▸ gap.nodup_positions gap.size
  mem_iff p := by
    rw [List.map_map]
    exact (List.map_id _).symm ▸ Span.mem_positions

/-- One pass of the loop: a hole, the session with the request for it out, and the records that come
for it. -/
structure Round where
  gap : Span
  asked : Session
  records : List Record

/-- The session after the first `n` records of the pass. -/
def Round.after (r : Round) (n : ℕ) : Session := (r.records.take n).foldl receiveBulk r.asked

/-- The session after the pass. -/
def Round.finished (r : Round) : Session := (r.records.foldl receiveBulk r.asked).finish

/-- The pass begins with the session `s`: the first hole of the window is found and asked for, while
the cursor channel stands at the end of the window, and the answers come for it. -/
structure Round.Begins (answers : (gap : Span) → Answers gap) (window : Span) (s : Session)
    (r : Round) : Prop where
  found : s.store.gap? window.first window.last = some r.gap
  asked : s.requestBackfill r.gap window.last = .ok r.asked
  records : r.records = (answers r.gap).records

/-- The loop leads from the session `s` to the session `t`: there is one pass after another as long
as a hole is found in the window. -/
inductive Fills (answers : (gap : Span) → Answers gap) (window : Span) :
    Session → List Round → Session → Prop
  | done {s : Session} (hnone : s.store.gap? window.first window.last = none) :
      Fills answers window s [] s
  | round {s t : Session} {r : Round} {rounds : List Round} (hr : r.Begins answers window s)
      (hrest : Fills answers window r.finished rounds t) : Fills answers window s (r :: rounds) t

variable {answers : (gap : Span) → Answers gap} {window gap : Span} {s t t' : Session}
  {r r' : Round} {rounds rounds' : List Round} {p : Position}

/-- A session begins one pass only. -/
theorem Round.Begins.unique (h : r.Begins answers window s) (h' : r'.Begins answers window s) :
    r = r' := by
  obtain ⟨gap, asked, records⟩ := r
  obtain ⟨gap', asked', records'⟩ := r'
  obtain rfl : gap = gap' := Option.some_inj.mp (h.found.symm.trans h'.found)
  obtain rfl : asked = asked' := Except.ok.inj (h.asked.symm.trans h'.asked)
  obtain rfl : records = records' := h.records.trans h'.records.symm
  rfl

/-- The loop goes one way only. -/
theorem Fills.unique (h : Fills answers window s rounds t)
    (h' : Fills answers window s rounds' t') : rounds = rounds' ∧ t = t' := by
  induction h generalizing rounds' t' with
  | done hnone =>
    cases h' with
    | done _ => exact ⟨rfl, rfl⟩
    | round hr => cases hnone.symm.trans hr.found
  | round hr _ ih =>
    cases h' with
    | done hnone => cases hnone.symm.trans hr.found
    | round hr' hrest' =>
      obtain rfl := hr.unique hr'
      obtain ⟨rfl, rfl⟩ := ih hrest'
      exact ⟨rfl, rfl⟩

/-! ## Answers -/

/-- Records of which no two are for one position are as many as their positions. -/
theorem card_positions {xs : List Record} (hnodup : (xs.map (·.position)).Nodup) :
    ((xs.map (·.position)).map Position.toNat).toFinset.card = xs.length := by
  rw [List.toFinset_card_of_nodup (hnodup.map Position.toNat_injective), List.length_map,
    List.length_map]

/-- There are as many answers as positions. -/
theorem Answers.length_records (a : Answers gap) : a.records.length = gap.size := by
  have hmem (p : Position) : p.toNat ∈ gap.numbers ↔ p ∈ a.records.map (·.position) :=
    Span.mem_numbers.trans (a.mem_iff p).symm
  rw [← Span.card_numbers, ← Position.length_eq_card a.nodup hmem, List.length_map]
  intro n hn
  obtain ⟨p, -, hp⟩ := Span.exists_of_mem_numbers hn
  exact ⟨p, hp⟩

/-- What comes for a span that ends at a place in the stream has a place in it. -/
theorem Answers.mem_placesOf_iff (a : Answers gap) (hset : gap.last.IsSet) :
    p ∈ placesOf a.records ↔ p ∈ gap := by
  rw [mem_placesOf, ← List.mem_map, a.mem_iff]
  exact and_iff_left_of_imp (Span.isSet_of_mem hset)

/-- Records are new, each of them, if no position comes twice and none is unset or held. -/
theorem card_added_of_new {xs : List Record} (hnodup : (xs.map (·.position)).Nodup)
    (hnew : ∀ p ∈ xs.map (·.position), p.IsSet ∧ p ∉ s.store) : (s.added xs).card = xs.length := by
  have hplaces : placesOf xs = xs.map (·.position) :=
    List.filter_eq_self.mpr fun p hp => decide_eq_true (hnew p hp).1
  have hdisjoint : Disjoint ((placesOf xs).map Position.toNat).toFinset s.store.numbers := by
    rw [Finset.disjoint_left, hplaces]
    intro n hn hs
    obtain ⟨p, hp, rfl⟩ := List.mem_map.mp (List.mem_toFinset.mp hn)
    exact (hnew p hp).2 (Store.mem_numbers.mp hs)
  rw [added, Finset.sdiff_eq_self_of_disjoint hdisjoint, hplaces, card_positions hnodup]

/-! ## One pass -/

/-- The accounts of a pass are right after each of its records. -/
structure Round.Accounted (r : Round) : Prop where
  length : r.records.length = r.gap.size
  expected : ∀ n, (r.after n).progress.expected.toNat = r.gap.size
  requested : ∀ n, (r.after n).progress.requested.toNat = r.gap.size
  transferred : ∀ n ≤ r.gap.size, (r.after n).progress.transferred.toNat = n
  /-- They are complete at the last record, and not before. -/
  complete : ∀ n ≤ r.gap.size, (r.after n).progress.isComplete ↔ n = r.gap.size

/-- What has come so far is merged into the session. -/
theorem Round.merged_after (r : Round) (n : ℕ) : Merged r.asked (r.records.take n) (r.after n) :=
  merged_foldl r.asked (r.records.take n)

namespace Round.Begins

theorem firstGap (h : r.Begins answers window s) :
    s.store.FirstGap window.first window.last r.gap ∧ r.gap.last.IsSet :=
  Store.firstGap_of_gap? h.found

theorem asked_eq (h : r.Begins answers window s) : r.asked = s.asked r.gap window.last.next :=
  (asked_of_request h.asked).2

/-- None of the hole is held when it is asked for. -/
theorem missing_asked (h : r.Begins answers window s) :
    (s.store.missing r.gap).card = r.gap.size := by
  rw [Store.missing_of_disjoint h.firstGap.1.not_held, Span.card_numbers]

/-- Each of the records that have come is counted. -/
theorem transferred_after (h : r.Begins answers window s) {n : ℕ} (hn : n ≤ r.gap.size) :
    (r.after n).progress.transferred.toNat = n := by
  obtain ⟨hfirst, hset⟩ := h.firstGap
  have hlength : (r.records.take n).length = n := by
    rw [List.length_take, h.records, Answers.length_records, Nat.min_eq_left hn]
  have hcard : (r.asked.added (r.records.take n)).card = n := by
    rw [card_added_of_new, hlength]
    · rw [h.records]
      exact (answers r.gap).nodup.sublist ((List.take_sublist n _).map _)
    · intro p hp
      rw [h.records] at hp
      have hin := ((answers r.gap).mem_iff p).mp (List.map_subset _ (List.take_subset n _) hp)
      rw [h.asked_eq]
      exact ⟨Span.isSet_of_mem hset hin, hfirst.not_held p hin⟩
  have hzero : r.asked.progress.transferred.toNat = 0 := by
    rw [h.asked_eq]
    rfl
  have hsize := Span.size_le hset
  rw [(r.merged_after n).counted, hcard, hzero]
  omega

theorem accounted (h : r.Begins answers window s) : r.Accounted := by
  have hframe (n : ℕ) : (r.after n).progress = (r.asked.taking (r.after n)).progress :=
    congrArg progress (r.merged_after n).frame
  have hexpected (n : ℕ) : (r.after n).progress.expected.toNat = r.gap.size := by
    rw [hframe, ← h.missing_asked, ← expected_asked h.firstGap.2 window.last.next, ← h.asked_eq]
    rfl
  have hrequested (n : ℕ) : (r.after n).progress.requested.toNat = r.gap.size := by
    rw [hframe, ← requested_asked h.firstGap.2 window.last.next, ← h.asked_eq]
    rfl
  refine ⟨?_, hexpected, hrequested, fun n hn => h.transferred_after hn, fun n hn => ?_⟩
  · rw [h.records, Answers.length_records]
  · rw [Progress.isComplete, decide_eq_true_iff, UInt32.le_iff_toNat_le, hexpected,
      h.transferred_after hn]
    omega

/-- After the pass all of the hole is held, and what was held. -/
theorem mem_finished (h : r.Begins answers window s) :
    p ∈ r.finished.store ↔ p ∈ s.store ∨ p ∈ r.gap := by
  show p ∈ (r.records.foldl receiveBulk r.asked).store ↔ _
  rw [(merged_foldl r.asked r.records).held, h.records, Answers.mem_placesOf_iff _ h.firstGap.2,
    h.asked_eq]
  rfl

/-- A record that was held is not replaced. -/
theorem get?_after (h : r.Begins answers window s) (hp : p ∈ s.store) (n : ℕ) :
    (r.after n).store.get? p = s.store.get? p := by
  have hout : p ∉ placesOf (r.records.take n) := by
    intro hin
    obtain ⟨⟨x, hx, rfl⟩, -⟩ := mem_placesOf.mp hin
    have hx' := List.mem_of_mem_take hx
    rw [h.records] at hx'
    exact h.firstGap.1.not_held _
      (((answers r.gap).mem_iff _).mp (List.mem_map_of_mem hx')) hp
  rw [(r.merged_after n).found, if_neg hout, h.asked_eq]
  rfl

theorem get?_finished (h : r.Begins answers window s) (hp : p ∈ s.store) :
    r.finished.store.get? p = s.store.get? p := by
  have hall : r.finished.store = (r.after r.records.length).store := by
    rw [after, List.take_length]
    rfl
  rw [hall, h.get?_after hp]

/-- Less is missing of the window. -/
theorem card_missing_lt (h : r.Begins answers window s) :
    (r.finished.store.missing window).card < (s.store.missing window).card := by
  have hfirst := h.firstGap.1
  have hin : r.gap.first ∈ r.gap := ⟨Nat.le_refl _, hfirst.ordered⟩
  apply Finset.card_lt_card
  rw [Finset.ssubset_iff_of_subset]
  · refine ⟨r.gap.first.toNat, Store.mem_missing.mpr ⟨?_, hfirst.not_held _ hin⟩, fun hm => ?_⟩
    · exact ⟨hfirst.first_le, Nat.le_trans hfirst.ordered hfirst.le_last⟩
    · exact (Store.mem_missing.mp hm).2 (h.mem_finished.mpr (.inr hin))
  · intro n hn
    obtain ⟨p, hp, hnot, rfl⟩ := Store.exists_of_mem_missing hn
    exact Store.mem_missing.mpr ⟨hp, fun hs => hnot (h.mem_finished.mpr (.inl hs))⟩

end Round.Begins

/-- The pass that a session begins with a hole. -/
def round (s : Session) (answers : (gap : Span) → Answers gap) (window gap : Span) : Round :=
  ⟨gap, s.asked gap window.last.next, (answers gap).records⟩

/-- A session in which a hole is found begins a pass with it. -/
theorem begins_round (hgap : s.store.gap? window.first window.last = some gap) :
    (s.round answers window gap).Begins answers window s :=
  ⟨hgap, request_of_ordered (Store.firstGap_of_gap? hgap).1.ordered _, rfl⟩

/-- The loop ends, because less is missing after each pass. -/
theorem exists_fills (answers : (gap : Span) → Answers gap) (window : Span) (s : Session) :
    ∃ rounds t, Fills answers window s rounds t := by
  -- the hole of the window that a pass begins with is missing before it, and held after it
  induction hn : (s.store.missing window).card using Nat.strong_induction_on generalizing s with
  | _ n ih =>
    cases hgap : s.store.gap? window.first window.last with
    | none => exact ⟨[], s, .done hgap⟩
    | some gap =>
      have hround : (s.round answers window gap).Begins answers window s := begins_round hgap
      obtain ⟨rounds, t, hrest⟩ := ih _ (hn ▸ hround.card_missing_lt) _ rfl
      exact ⟨_ :: rounds, t, .round hround hrest⟩

/-! ## All passes -/

/-- The passes enumerate what is missing of a window. -/
structure Enumerates (s : Session) (window : Span) (rounds : List Round) (t : Session) : Prop where
  /-- The holes ascend, and between two of them there is a position of neither. -/
  apart : rounds.Pairwise fun a b => a.gap.last.toNat + 1 < b.gap.first.toNat
  ordered : ∀ r ∈ rounds, r.gap.Ordered
  /-- They are made of the positions that were missing at the beginning. -/
  exact : ∀ p, (∃ r ∈ rounds, p ∈ r.gap) ↔ p ∈ window ∧ p ∉ s.store
  accounted : ∀ r ∈ rounds, r.Accounted
  /-- What was held is never changed. -/
  kept : ∀ p ∈ s.store, (∀ r ∈ rounds, ∀ n, (r.after n).store.get? p = s.store.get? p) ∧
    t.store.get? p = s.store.get? p
  covers : t.store.Covers window
  length_le : rounds.length ≤ (s.store.missing window).card

/-- Without a hole there is nothing to enumerate. -/
theorem enumerates_nil (hset : window.last.IsSet)
    (hnone : s.store.gap? window.first window.last = none) : s.Enumerates window [] s := by
  have hcovers : s.store.Covers window := by
    intro p hp
    rcases Store.gap?_eq_none_iff.mp hnone with hno | hall
    · exact absurd ⟨Nat.le_trans hp.1 hp.2, hset⟩ hno
    · exact hall p hp.1 hp.2
  constructor
  case apart => exact .nil
  case ordered => exact fun r hr => absurd hr List.not_mem_nil
  case exact =>
    refine fun p => iff_of_false ?_ fun h => h.2 (hcovers p h.1)
    rintro ⟨r, hr, -⟩
    exact List.not_mem_nil hr
  case accounted => exact fun r hr => absurd hr List.not_mem_nil
  case kept => exact fun p _ => ⟨fun r hr => absurd hr List.not_mem_nil, rfl⟩
  case covers => exact hcovers
  case length_le => exact Nat.zero_le _

/-- A pass puts its hole before the others. -/
theorem Round.Begins.enumerates (h : r.Begins answers window s)
    (hrest : r.finished.Enumerates window rounds t) : s.Enumerates window (r :: rounds) t := by
  obtain ⟨hfirst, -⟩ := h.firstGap
  constructor
  case apart =>
    refine List.pairwise_cons.mpr ⟨fun b hb => ?_, hrest.apart⟩
    -- a hole that is found later is of the window, and was missing before
    obtain ⟨⟨hge, hle⟩, hnot⟩ :=
      (hrest.exact b.gap.first).mp ⟨b, hb, Nat.le_refl _, hrest.ordered b hb⟩
    obtain ⟨hnew, hout⟩ := not_or.mp (mt h.mem_finished.mpr hnot)
    exact hfirst.next_lt_of_not_held hge hle hnew hout
  case ordered => exact List.forall_mem_cons.mpr ⟨hfirst.ordered, hrest.ordered⟩
  case exact =>
    intro p
    rw [List.exists_mem_cons_iff, hrest.exact, h.mem_finished]
    constructor
    · rintro (hp | ⟨hp, hnot⟩)
      · exact ⟨⟨Nat.le_trans hfirst.first_le hp.1, Nat.le_trans hp.2 hfirst.le_last⟩,
          hfirst.not_held p hp⟩
      · exact ⟨hp, fun hs => hnot (.inl hs)⟩
    · rintro ⟨hp, hs⟩
      by_cases hin : p ∈ r.gap
      · exact .inl hin
      · exact .inr ⟨hp, not_or.mpr ⟨hs, hin⟩⟩
  case accounted => exact List.forall_mem_cons.mpr ⟨h.accounted, hrest.accounted⟩
  case kept =>
    intro p hp
    obtain ⟨hlater, hend⟩ := hrest.kept p (h.mem_finished.mpr (.inl hp))
    rw [h.get?_finished hp] at hlater hend
    exact ⟨List.forall_mem_cons.mpr ⟨h.get?_after hp, hlater⟩, hend⟩
  case covers => exact hrest.covers
  case length_le =>
    have hlength := hrest.length_le
    have hless := h.card_missing_lt
    rw [List.length_cons]
    omega

/-- The loop enumerates what is missing of the window. -/
theorem Fills.enumerates (h : Fills answers window s rounds t) (hset : window.last.IsSet) :
    s.Enumerates window rounds t := by
  induction h with
  | done hnone => exact enumerates_nil hset hnone
  | round hr _ ih => exact hr.enumerates ih

/-- **The loop ends, and it finds every hole once**, whatever the session holds, and in whichever
order the answers for a hole come. There is one way that it goes. On this way the holes ascend and
no two of them touch, they are made of what was missing of the window at the beginning, and each
request expects the size of its hole and is complete at its last record; and no record that was
held is changed. -/
theorem fills_every_hole_once (s : Session) {window : Span} (hset : window.last.IsSet)
    (answers : (gap : Span) → Answers gap) :
    ∃ rounds t, Fills answers window s rounds t ∧ s.Enumerates window rounds t ∧
      ∀ rounds' t', Fills answers window s rounds' t' → rounds' = rounds ∧ t' = t := by
  obtain ⟨rounds, t, hfills⟩ := exists_fills answers window s
  exact ⟨rounds, t, hfills, hfills.enumerates hset, fun _ _ hfills' => hfills'.unique hfills⟩

/-- Around the records at 1 and 7 there are three holes. -/
theorem fills_around_two_records :
    (Script.span 0 9).last.IsSet ∧ ∃ rounds t,
      Fills Answers.ascending (Script.span 0 9) withTwoRecords rounds t ∧
      withTwoRecords.Enumerates (Script.span 0 9) rounds t ∧
      rounds.map (·.gap) = [Script.span 0 0, Script.span 2 6, Script.span 8 9] ∧
      t.store.size = 10 := by
  have hset : (Script.span 0 9).last.IsSet := by decide
  obtain ⟨rounds, t, hfills, henumerates, hunique⟩ :=
    fills_every_hole_once withTwoRecords hset Answers.ascending
  have hthree : ∃ rounds t, Fills Answers.ascending (Script.span 0 9) withTwoRecords rounds t ∧
      rounds.map (·.gap) = [Script.span 0 0, Script.span 2 6, Script.span 8 9] ∧
      t.store.size = 10 := by
    refine ⟨_, _, .round (begins_round ?_) (.round (begins_round ?_) (.round (begins_round ?_)
      (.done ?_))), rfl, ?_⟩
    all_goals decide
  obtain ⟨rounds', t', hthree, hgaps, hsize⟩ := hthree
  obtain ⟨rfl, rfl⟩ := hunique _ _ hthree
  exact ⟨hset, _, _, hfills, henumerates, hgaps, hsize⟩

end Session

end Logbook
