import Logbook.Proofs.Session
import Logbook.Proofs.Store.Records
import Logbook.Rehearsal.Script

/-!
# What the bulk channel leaves in a session

Records of the bulk channel come in any order and more than once. A session merges them: it holds
every place that came, with the last record that came for it, and counts every place once that it
did not hold. So the order of records for different places does not matter, and only that of
records for the same place does.

- `Session.added`: the places that are new to the session.
- `Session.Merged`: what has become of a session over records of the bulk channel.
- `Session.Merged.receiveBulk`: one record more; `Session.merged_foldl`: all of them.
- `Session.Merged.unique`: nothing but this becomes of it, also when the records are rearranged.
- `Session.merges_in_any_order`: the two together.
-/

namespace Logbook.Session

open Rehearsal Script

variable {s t u : Session} {xs ys : List Record} {x : Record}

/-! ## What one record changes -/

/-- The session with all that the bulk channel can change taken from another one. -/
def taking (s t : Session) : Session :=
  { s with
    store := t.store
    nextBulk := t.nextBulk
    patience := t.patience
    progress := { s.progress with transferred := t.progress.transferred } }

/-- Nothing else is changed by a record. -/
theorem receiveBulk_eq_taking (s : Session) (x : Record) :
    s.receiveBulk x = s.taking (s.receiveBulk x) := by
  unfold receiveBulk taking
  by_cases hset : x.position.IsSet
  · by_cases hheld : x.position ∈ s.store
    · simp only [hset, hheld, if_true]
    · simp only [hset, hheld, if_true, if_false]
  · simp only [hset, if_false]

/-- The bulk channel goes on behind the highest place that it brought. -/
theorem nextBulk_receiveBulk (s : Session) (hset : x.position.IsSet) :
    (s.receiveBulk x).nextBulk.map Position.toNat =
      some (max ((s.nextBulk.map Position.toNat).getD 0) (min (x.position.toNat + 1) 4294967294)) := by
  unfold receiveBulk
  rw [if_pos hset]
  cases s.nextBulk with
  | none =>
    show some x.position.next.toNat = some (max 0 _)
    rw [Position.toNat_next, Nat.zero_max]
  | some p =>
    show some (max p x.position.next).toNat = some (max p.toNat _)
    rw [Position.toNat_max, Position.toNat_next]

/-! ## The places that are new -/

/-- The places that come and that the session does not hold, as numbers. -/
def added (s : Session) (xs : List Record) : Finset ℕ :=
  ((placesOf xs).map Position.toNat).toFinset \ s.store.numbers

theorem mem_added {p : Position} : p.toNat ∈ s.added xs ↔ p ∈ placesOf xs ∧ p ∉ s.store := by
  rw [added, Finset.mem_sdiff, Store.mem_numbers, List.mem_toFinset, List.mem_map]
  refine and_congr_left fun _ => ⟨?_, fun hp => ⟨p, hp, rfl⟩⟩
  rintro ⟨q, hq, he⟩
  rwa [← Position.ext he]

/-- A record adds its place, unless the session holds it or it came before. -/
theorem card_added_concat (s : Session) (xs : List Record) (hset : x.position.IsSet) :
    (s.added (xs ++ [x])).card = (s.added xs).card +
      if x.position ∈ s.store ∨ x.position ∈ placesOf xs then 0 else 1 := by
  have hplaces : ((placesOf (xs ++ [x])).map Position.toNat).toFinset =
      insert x.position.toNat ((placesOf xs).map Position.toNat).toFinset := by
    rw [placesOf_concat_of_isSet xs hset, List.map_append, List.toFinset_append, Finset.union_comm]
    rfl
  rw [added, hplaces]
  by_cases hheld : x.position ∈ s.store
  · rw [if_pos (.inl hheld), Finset.insert_sdiff_of_mem _ (Store.mem_numbers.mpr hheld)]
    rfl
  · rw [Finset.insert_sdiff_of_notMem _ (mt Store.mem_numbers.mp hheld)]
    show (insert _ (s.added xs)).card = _
    by_cases hcame : x.position ∈ placesOf xs
    · rw [if_pos (.inr hcame), Finset.insert_eq_of_mem (mem_added.mpr ⟨hcame, hheld⟩)]
      rfl
    · rw [if_neg (not_or.mpr ⟨hheld, hcame⟩),
        Finset.card_insert_of_notMem fun hin => hcame (mem_added.mp hin).1]

/-! ## What has become of a session -/

/-- What has become of the session `s` over records of the bulk channel: `t` is the session
afterwards. -/
structure Merged (s : Session) (xs : List Record) (t : Session) : Prop where
  /-- What was held is held, and what came. -/
  held : ∀ p, p ∈ t.store ↔ p ∈ s.store ∨ p ∈ placesOf xs
  /-- The last record for a place is the one that is found. -/
  found : ∀ p, t.store.get? p =
    if p ∈ placesOf xs then (recordsAt p xs).getLast? else s.store.get? p
  /-- Each new place is counted once, as far as the counter goes. -/
  counted : t.progress.transferred.toNat =
    min (s.progress.transferred.toNat + (s.added xs).card) 4294967295
  /-- The bulk channel goes on behind the highest place, and has all its ticks again. -/
  reached : (∃ x ∈ xs, x.position.IsSet) → ∃ p, highest? xs = some p ∧
    t.patience = s.tolerance.ticks ∧ t.nextBulk.map Position.toNat =
      some (max ((s.nextBulk.map Position.toNat).getD 0) (min (p.toNat + 1) 4294967294))
  /-- Without a place nothing has changed. -/
  idle : placesOf xs = [] → t = s
  /-- Nothing else has changed. -/
  frame : t = s.taking t

namespace Merged

theorem nil (s : Session) : Merged s [] s where
  held p := (or_iff_left List.not_mem_nil).symm
  found p := (if_neg List.not_mem_nil).symm
  counted := by
    have hbound := s.progress.transferred.toNat_lt
    show _ = min (_ + (∅ \ s.store.numbers).card) _
    rw [Finset.empty_sdiff, Finset.card_empty]
    omega
  reached := by
    rintro ⟨x, hx, -⟩
    exact absurd hx List.not_mem_nil
  idle _ := rfl
  frame := rfl

/-- A record at the unset mark is passed over. -/
theorem concat_unset (h : Merged s xs t) (hunset : ¬ x.position.IsSet) :
    Merged s (xs ++ [x]) t where
  held p := by
    rw [placesOf_concat_of_unset xs hunset]
    exact h.held p
  found p := by
    rw [placesOf_concat_of_unset xs hunset, h.found p]
    split
    · next hp =>
      rw [recordsAt_concat_of_ne xs]
      rintro rfl
      exact hunset (mem_placesOf.mp hp).2
    · rfl
  counted := by
    rw [added, placesOf_concat_of_unset xs hunset]
    exact h.counted
  reached := by
    rintro ⟨y, hy, hset⟩
    rcases List.mem_append.mp hy with hy | hy
    · rw [highest?, placesOf_concat_of_unset xs hunset]
      exact h.reached ⟨y, hy, hset⟩
    · rw [List.mem_singleton.mp hy] at hset
      exact absurd hset hunset
  idle := by
    rw [placesOf_concat_of_unset xs hunset]
    exact h.idle
  frame := h.frame

/-- The bulk channel goes on behind the place of a record, if none that came before is above. -/
theorem reached_concat (h : Merged s xs t) (hset : x.position.IsSet) :
    ∃ p, highest? (xs ++ [x]) = some p ∧ (t.receiveBulk x).nextBulk.map Position.toNat =
      some (max ((s.nextBulk.map Position.toNat).getD 0) (min (p.toNat + 1) 4294967294)) := by
  by_cases hcame : ∃ y ∈ xs, y.position.IsSet
  · obtain ⟨p, hp, -, hnext⟩ := h.reached hcame
    refine ⟨max p x.position, highest?_concat hp hset, ?_⟩
    rw [nextBulk_receiveBulk t hset, hnext, Option.getD_some, Position.toNat_max]
    congr 1
    omega
  · have hnone : placesOf xs = [] := by
      rw [placesOf_eq_nil_iff]
      exact fun y hy hy' => hcame ⟨y, hy, hy'⟩
    rw [h.idle hnone]
    exact ⟨x.position, highest?_concat_of_nil hnone hset, nextBulk_receiveBulk s hset⟩

/-- A record with a place is stored, over the one that was there. -/
theorem concat_set (h : Merged s xs t) (hset : x.position.IsSet) :
    Merged s (xs ++ [x]) (t.receiveBulk x) where
  held p := by
    rw [store_receiveBulk_of_isSet t hset, Store.mem_insert, h.held,
      placesOf_concat_of_isSet xs hset, List.mem_append, List.mem_singleton, or_comm, or_assoc]
  found p := by
    rw [store_receiveBulk_of_isSet t hset, Store.get?_insert, placesOf_concat_of_isSet xs hset]
    by_cases hp : p = x.position
    · subst hp
      rw [if_pos rfl, if_pos (List.mem_append_right _ (List.mem_singleton_self _)),
        recordsAt_concat_self, List.getLast?_concat]
    · rw [if_neg hp, recordsAt_concat_of_ne xs (Ne.symm hp), h.found p]
      simp only [List.mem_append, List.mem_singleton, hp, or_false]
  counted := by
    rw [transferred_receiveBulk, card_added_concat s xs hset]
    by_cases hheld : x.position ∈ t.store
    · rw [if_neg fun hnew => hnew.2 hheld, if_pos ((h.held _).mp hheld), h.counted]
      rfl
    · rw [if_pos ⟨hset, hheld⟩, if_neg (mt (h.held _).mpr hheld), Counter.toNat_succ, h.counted]
      omega
  reached _ := by
    obtain ⟨p, hp, hnext⟩ := h.reached_concat hset
    refine ⟨p, hp, ?_, hnext⟩
    have htolerance : t.tolerance = (s.taking t).tolerance := congrArg tolerance h.frame
    rw [patience_receiveBulk, if_pos hset, htolerance]
    rfl
  idle hnone := by
    rw [placesOf_concat_of_isSet xs hset] at hnone
    exact absurd hnone (List.concat_ne_nil _ _)
  frame := calc
    t.receiveBulk x = t.taking (t.receiveBulk x) := receiveBulk_eq_taking t x
    _ = (s.taking t).taking (t.receiveBulk x) := by rw [← h.frame]
    _ = s.taking (t.receiveBulk x) := rfl

/-- One record more. -/
theorem receiveBulk (h : Merged s xs t) (x : Record) : Merged s (xs ++ [x]) (t.receiveBulk x) := by
  by_cases hset : x.position.IsSet
  · exact h.concat_set hset
  · rw [receiveBulk_of_unset hset]
    exact h.concat_unset hset

/-- **Nothing but this becomes of a session**, and rearranged records make no difference. -/
theorem unique (h : Merged s xs t) (h' : Merged s ys u) (hsame : Rearranges xs ys) : t = u := by
  have hplaces (p : Position) : p ∈ placesOf xs ↔ p ∈ placesOf ys := hsame.perm_placesOf.mem_iff
  have hstore : t.store = u.store := by
    apply Store.ext_get?
    intro p
    rw [h.found, h'.found, hsame.order p]
    simp only [hplaces]
  have hcount : t.progress.transferred = u.progress.transferred := by
    have hadded : s.added xs = s.added ys := by
      rw [added, added, List.toFinset_eq_of_perm _ _ (hsame.perm_placesOf.map _)]
    rw [← UInt32.toNat_inj, h.counted, h'.counted, hadded]
  by_cases hcame : ∃ x ∈ xs, x.position.IsSet
  · obtain ⟨x, hx, hset⟩ := hcame
    obtain ⟨p, hp, hpatience, hnext⟩ := h.reached ⟨x, hx, hset⟩
    obtain ⟨q, hq, hpatience', hnext'⟩ := h'.reached ⟨x, hsame.perm.mem_iff.mp hx, hset⟩
    obtain rfl : p = q := Option.some_inj.mp (by rw [← hp, ← hq, hsame.highest?_eq])
    have hbulk : t.nextBulk = u.nextBulk :=
      Option.map_injective (fun _ _ => Position.ext) (hnext.trans hnext'.symm)
    calc
      t = s.taking t := h.frame
      _ = s.taking u := by rw [taking, taking, hstore, hcount, hbulk, hpatience, hpatience']
      _ = u := h'.frame.symm
  · have hnone : placesOf xs = [] := by
      rw [placesOf_eq_nil_iff]
      exact fun x hx hset => hcame ⟨x, hx, hset⟩
    have hnone' : placesOf ys = [] := by
      rw [← List.perm_nil, ← hnone]
      exact hsame.perm_placesOf.symm
    rw [h.idle hnone, h'.idle hnone']

end Merged

/-! ## All records -/

/-- Whatever comes over the bulk channel is merged. -/
theorem merged_foldl (s : Session) (xs : List Record) : Merged s xs (xs.foldl receiveBulk s) := by
  induction xs using List.reverseRecOn with
  | nil => exact .nil s
  | append_singleton xs x ih =>
    rw [List.foldl_concat]
    exact ih.receiveBulk x

/-- **The bulk channel merges its records, and the last one for a place wins.** Whatever a session
holds and whatever comes, it is merged into the session; and records that are rearranged, so that
those for the same place keep their order, lead to the same session. -/
theorem merges_in_any_order (s : Session) (xs : List Record) :
    Merged s xs (xs.foldl receiveBulk s) ∧
      ∀ ys, Rearranges xs ys → ys.foldl receiveBulk s = xs.foldl receiveBulk s :=
  ⟨merged_foldl s xs, fun ys hsame => ((merged_foldl s xs).unique (merged_foldl s ys) hsame).symm⟩

/-- A record at 3, one at 5, the one at 3 corrected, and the unset mark. -/
def corrected : List Record :=
  [⟨pos 3, [1]⟩, ⟨pos 5, [2]⟩, ⟨pos 3, [3]⟩, ⟨.unset, [4]⟩]

/-- The same records, with the correction still behind what it corrects. -/
def correctedLate : List Record :=
  [⟨.unset, [4]⟩, ⟨pos 3, [1]⟩, ⟨pos 3, [3]⟩, ⟨pos 5, [2]⟩]

/-- Both leave the correction, and two new places. -/
theorem merges_a_correction :
    ∃ s : Session, s = begin Device.standard.info .standard ∧
      Merged s corrected (corrected.foldl receiveBulk s) ∧ Rearranges corrected correctedLate ∧
      correctedLate.foldl receiveBulk s = corrected.foldl receiveBulk s ∧
      (correctedLate.foldl receiveBulk s).store.records = [⟨pos 3, [3]⟩, ⟨pos 5, [2]⟩] ∧
      (correctedLate.foldl receiveBulk s).progress.transferred = 2 := by
  obtain ⟨hmerged, hsame⟩ :=
    merges_in_any_order (begin Device.standard.info .standard) corrected
  have hrearranged : Rearranges corrected correctedLate := by
    refine ⟨by decide, fun p => ?_⟩
    -- only three positions come, and for any other one there is nothing to put in order
    by_cases hthree : pos 3 = p
    · subst hthree
      decide
    by_cases hfive : pos 5 = p
    · subst hfive
      decide
    by_cases hunset : .unset = p
    · subst hunset
      decide
    · simp [recordsAt, corrected, correctedLate, hthree, hfive, hunset]
  exact ⟨_, rfl, hmerged, hrearranged, hsame _ hrearranged, by decide, by decide⟩

end Logbook.Session
