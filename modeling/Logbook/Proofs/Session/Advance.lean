import Logbook.Proofs.Session
import Logbook.Proofs.Store.Records
import Logbook.Rehearsal.Script

/-!
# What the cursor channel leaves in a session

The cursor channel of a new session takes whatever comes first, and then only goes forward: a record
is stored if it is above all that came before, and any other one only costs a tick. The last
position of a stream is the exception, because nothing is expected behind it: it is stored each time
that it comes.

- `Session.Kept`: what has become of a session over records of the cursor channel.
- `Session.Kept.accepts_iff`: a record is stored if it is above all others, or the last position once
  more.
- `Session.Kept.receiveCursor`: one record more, which is at the unset mark, above all others or
  not above the highest.
- `Session.keeps_running_maxima`: all of them.
-/

namespace Logbook.Session

open Rehearsal Script

variable {t : Session} {tolerance : Tolerance} {xs : List Record} {x : Record} {p : Position}

/-- What has become of a new session over records of the cursor channel: `t` is the session
afterwards. -/
structure Kept (tolerance : Tolerance) (xs : List Record) (t : Session) : Prop where
  /-- Each place that was above all before it is held. -/
  held : ∀ p, p ∈ t.store ↔ IsRunningMaximum (placesOf xs) p
  /-- The first record for a place is the one that is found. -/
  first : ∀ p ∈ t.store, p < .last → t.store.get? p = (recordsAt p xs).head?
  /-- The channel goes on behind the highest place. -/
  expects : t.nextCursor.map Position.toNat =
    (highest? xs).map fun p => min (p.toNat + 1) 4294967294
  /-- Each record takes a tick, as long as there is one. -/
  patience : t.patience.toNat = tolerance.ticks.toNat - xs.length

namespace Kept

theorem nil (info : SessionInfo) (tolerance : Tolerance) :
    Kept tolerance [] (begin info tolerance) where
  held p := by
    constructor
    · intro hp
      exact absurd hp (Store.not_mem_empty p)
    · intro hp
      exact absurd hp.mem List.not_mem_nil
  first p hp := absurd hp (Store.not_mem_empty p)
  expects := rfl
  patience := rfl

/-- What is held is a place that came. -/
theorem mem_placesOf (h : Kept tolerance xs t) (hp : p ∈ t.store) : p ∈ placesOf xs :=
  ((h.held p).mp hp).mem

/-- A record is stored if its place is above all others, or if it is the last one once more. -/
theorem accepts_iff (h : Kept tolerance xs t) (hset : x.position.IsSet) :
    t.Accepts x ↔ (∀ q ∈ placesOf xs, q < x.position) ∨
      x.position = .last ∧ highest? xs = some .last := by
  have hexpects := h.expects
  have hlast : x.position.toNat ≤ 4294967294 := Position.isSet_iff.mp hset
  unfold Accepts expectedCursor
  cases hhigh : highest? xs with
  | none =>
    have hnone : placesOf xs = [] := List.max?_eq_none_iff.mp hhigh
    have hfree : t.nextCursor = none := by
      rw [hhigh] at hexpects
      exact Option.map_eq_none_iff.mp hexpects
    rw [hfree, hnone]
    simp [hset]
  | some m =>
    obtain ⟨hmem, hle⟩ := highest?_eq_some_iff.mp hhigh
    obtain ⟨e, he, hnext⟩ : ∃ e, t.nextCursor = some e ∧ e.toNat = min (m.toNat + 1) 4294967294 := by
      rw [hhigh] at hexpects
      exact Option.map_eq_some_iff.mp hexpects
    have hmlast : m.toNat ≤ 4294967294 := Position.isSet_iff.mp (Logbook.mem_placesOf.mp hmem).2
    have habove : (∀ q ∈ placesOf xs, q < x.position) ↔ m.toNat < x.position.toNat := by
      constructor
      · intro hall
        exact hall m hmem
      · intro hlt q hq
        exact Nat.lt_of_le_of_lt (hle q hq) hlt
    rw [he, Option.getD_some, and_iff_right hset, habove, Position.le_iff, hnext,
      Option.some_inj, Position.ext_iff, Position.ext_iff]
    show _ ↔ _ ∨ x.position.toNat = 4294967294 ∧ m.toNat = 4294967294
    omega

/-! ## One record more -/

/-- A record that is stored, with what becomes of the running maxima: the channel goes on behind
it. -/
theorem concat_stored (h : Kept tolerance xs t) (haccepts : t.Accepts x)
    (hheld : ∀ p, IsRunningMaximum (placesOf (xs ++ [x])) p ↔ p = x.position ∨ p ∈ t.store)
    (hhigh : highest? (xs ++ [x]) = some x.position)
    (hfirst : x.position < .last → recordsAt x.position xs = []) :
    Kept tolerance (xs ++ [x]) (t.receiveCursor x) where
  held p := by
    rw [store_receiveCursor, if_pos haccepts, Store.mem_insert, hheld]
  first p hp hbelow := by
    rw [store_receiveCursor, if_pos haccepts] at hp ⊢
    rw [Store.get?_insert]
    by_cases he : p = x.position
    · subst he
      rw [if_pos rfl, recordsAt_concat_self, hfirst hbelow]
      rfl
    · rw [if_neg he, recordsAt_concat_of_ne xs (Ne.symm he)]
      exact h.first p ((Store.mem_insert.mp hp).resolve_left he) hbelow
  expects := by
    rw [nextCursor_receiveCursor, if_pos haccepts, hhigh]
    rfl
  patience := by
    rw [patience_receiveCursor, Counter.toNat_pred, h.patience, List.length_append]
    rfl

/-- A record that is not stored, and of which the running maxima have nothing either: it only
takes a tick. -/
theorem concat_ignored (h : Kept tolerance xs t) (haccepts : ¬ t.Accepts x)
    (hheld : ∀ p, IsRunningMaximum (placesOf (xs ++ [x])) p ↔ IsRunningMaximum (placesOf xs) p)
    (hhigh : highest? (xs ++ [x]) = highest? xs) :
    Kept tolerance (xs ++ [x]) (t.receiveCursor x) where
  held p := by
    rw [store_receiveCursor, if_neg haccepts, h.held, hheld]
  first p hp hbelow := by
    rw [store_receiveCursor, if_neg haccepts] at hp ⊢
    rw [h.first p hp hbelow, head?_recordsAt_concat (h.mem_placesOf hp)]
  expects := by
    rw [nextCursor_receiveCursor, if_neg haccepts, h.expects, hhigh]
  patience := by
    rw [patience_receiveCursor, Counter.toNat_pred, h.patience, List.length_append]
    rfl

/-- A record at the unset mark is not stored. -/
theorem concat_unset (h : Kept tolerance xs t) (hunset : ¬ x.position.IsSet) :
    Kept tolerance (xs ++ [x]) (t.receiveCursor x) := by
  refine h.concat_ignored (fun haccepts => hunset haccepts.1) (fun p => ?_) ?_
  · rw [placesOf_concat_of_unset xs hunset]
  · rw [highest?, placesOf_concat_of_unset xs hunset, highest?]

/-- A record that is above all others is stored. -/
theorem concat_above (h : Kept tolerance xs t) (hset : x.position.IsSet)
    (habove : ∀ q ∈ placesOf xs, q < x.position) :
    Kept tolerance (xs ++ [x]) (t.receiveCursor x) := by
  refine h.concat_stored ((h.accepts_iff hset).mpr (.inl habove)) (fun p => ?_) ?_ fun _ => ?_
  · rw [placesOf_concat_of_isSet xs hset, isRunningMaximum_concat, and_iff_left habove, h.held,
      or_comm]
  · rw [highest?_eq_some_iff, placesOf_concat_of_isSet xs hset]
    refine ⟨List.mem_append_right _ (List.mem_singleton_self _), fun q hq => ?_⟩
    rcases List.mem_append.mp hq with hq | hq
    · exact Nat.le_of_lt (habove q hq)
    · rw [List.mem_singleton.mp hq]
      exact Nat.le_refl _
  · rw [recordsAt_eq_nil_iff]
    intro y hy hsame
    exact Nat.lt_irrefl _ (habove _ (Logbook.mem_placesOf.mpr ⟨⟨y, hy, hsame⟩, hset⟩))

/-- A record that is not above the highest one changes nothing about the running maxima. It is
stored only if both are at the last position, and then in the place of the one that is there. -/
theorem concat_below (h : Kept tolerance xs t) (hset : x.position.IsSet) {m : Position}
    (hm : highest? xs = some m) (hle : x.position ≤ m) :
    Kept tolerance (xs ++ [x]) (t.receiveCursor x) := by
  have hnotAbove : ¬ ∀ q ∈ placesOf xs, q < x.position := fun habove =>
    Nat.not_lt.mpr hle (habove m (highest?_eq_some_iff.mp hm).1)
  have hheld (p : Position) :
      IsRunningMaximum (placesOf (xs ++ [x])) p ↔ IsRunningMaximum (placesOf xs) p := by
    rw [placesOf_concat_of_isSet xs hset, isRunningMaximum_concat, or_iff_left]
    exact fun habove => hnotAbove habove.2
  have hmax : max m x.position = m :=
    Position.ext ((Position.toNat_max m x.position).trans (Nat.max_eq_left hle))
  have hhigh : highest? (xs ++ [x]) = some m := by
    rw [highest?_concat hm hset, hmax]
  by_cases haccepts : t.Accepts x
  · obtain ⟨hlast, hmlast⟩ := ((h.accepts_iff hset).mp haccepts).resolve_left hnotAbove
    obtain rfl : m = x.position := by
      rw [← Option.some_inj, ← hm, hmlast, hlast]
    refine h.concat_stored haccepts (fun p => ?_) hhigh fun hbelow => ?_
    · rw [hheld, h.held, or_iff_right_of_imp]
      rintro rfl
      exact isRunningMaximum_of_max? hm
    · rw [hlast] at hbelow
      exact absurd hbelow (Nat.lt_irrefl _)
  · exact h.concat_ignored haccepts hheld (hhigh.trans hm.symm)

/-- One record more. -/
theorem receiveCursor (h : Kept tolerance xs t) (x : Record) :
    Kept tolerance (xs ++ [x]) (t.receiveCursor x) := by
  by_cases hset : x.position.IsSet
  · by_cases habove : ∀ q ∈ placesOf xs, q < x.position
    · exact h.concat_above hset habove
    · -- some place is not below, and so the highest one is not
      obtain ⟨q, hq, hnot⟩ : ∃ q ∈ placesOf xs, ¬ q < x.position := by
        by_contra hnone
        exact habove fun q hq => by_contra fun hnot => hnone ⟨q, hq, hnot⟩
      obtain ⟨m, hm⟩ := exists_highest? hq
      have hqm : q ≤ m := (highest?_eq_some_iff.mp hm).2 q hq
      exact h.concat_below hset hm (Nat.le_trans (Nat.not_lt.mp hnot) hqm)
  · exact h.concat_unset hset

/-- Any number of records more. -/
theorem foldl (h : Kept tolerance xs t) (ys : List Record) :
    Kept tolerance (xs ++ ys) (ys.foldl Session.receiveCursor t) := by
  induction ys generalizing xs t with
  | nil =>
    rw [List.append_nil]
    exact h
  | cons y ys ih =>
    have hnext := ih (h.receiveCursor y)
    rw [List.append_assoc] at hnext
    exact hnext

end Kept

/-! ## All records -/

/-- **The cursor channel of a new session keeps the running maxima**, whatever comes over it: the
places that were above all before them are held, with the first record for each, and the channel
goes on behind the highest. -/
theorem keeps_running_maxima (info : SessionInfo) (tolerance : Tolerance) (xs : List Record) :
    Kept tolerance xs (xs.foldl Session.receiveCursor (begin info tolerance)) := by
  induction xs using List.reverseRecOn with
  | nil => exact .nil info tolerance
  | append_singleton xs x ih =>
    rw [List.foldl_concat]
    exact ih.receiveCursor x

/-- A jump to 5 is kept, and what comes late for 4 and again for 5 is not. -/
example : ([⟨pos 2, [1]⟩, ⟨pos 5, [2]⟩, ⟨pos 4, [3]⟩, ⟨pos 5, [4]⟩, ⟨.unset, [5]⟩].foldl
    Session.receiveCursor (begin Device.standard.info .standard)).store.records =
      [⟨pos 2, [1]⟩, ⟨pos 5, [2]⟩] := by decide

end Logbook.Session
