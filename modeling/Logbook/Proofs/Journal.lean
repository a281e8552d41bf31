import Logbook.Journal
import Logbook.Proofs.Session
import Logbook.Proofs.Store.Records
import Mathlib.Data.List.Chain
import Mathlib.Data.List.Forall2

/-!
# What a journal keeps

Only the current session of a journal ever changes, and it only gets more records. So a journal
that goes on has all that it had, and a history is told the same way however long it grows.

- `Session.Tells`: a list tells the records of a session, each once and in ascending order.
- `Journal.WellKept`: how the sessions of a journal stand to each other and to the history.
- `Journal.Extends`: a journal has all that an earlier one had, in its place.
- `Journal.Extends.revised`, `Journal.Extends.opened`: a change of the current session, and a new
  session, take nothing away.
-/

namespace Logbook

namespace Session

/-- The list tells the records of a session: each of them once, with its session and its place in
time, in ascending order of the positions. -/
structure Tells (s : Session) (ys : List Placed) : Prop where
  ascending : ys.Pairwise (·.record.position < ·.record.position)
  mem_iff : ∀ y, y ∈ ys ↔ s.store.get? y.record.position = some y.record ∧
    y.session = s.id ∧ y.time = s.timeOf? y.record.position

theorem mem_history {s : Session} {y : Placed} :
    y ∈ s.history ↔ y.record ∈ s.store.records ∧ y.session = s.id ∧
      y.time = s.timeOf? y.record.position := by
  unfold history
  rw [List.mem_map]
  constructor
  · rintro ⟨x, hx, rfl⟩
    exact ⟨hx, rfl, rfl⟩
  · rintro ⟨hx, hsession, htime⟩
    refine ⟨y.record, hx, ?_⟩
    rw [← hsession, ← htime]

theorem tells_history (s : Session) : s.Tells s.history where
  ascending := List.pairwise_map.mpr s.store.ascending
  mem_iff y := by
    rw [mem_history, Store.get?_eq_some_iff, and_iff_left rfl]

end Session

namespace Journal

variable {j k l : Journal} {s t : Session}

theorem sessions_of_current (hs : j.current = some s) : j.sessions = j.closed ++ [s] := by
  rw [sessions, hs]
  rfl

theorem mem_sessions_of_current (hs : j.current = some s) : s ∈ j.sessions := by
  rw [sessions_of_current hs]
  exact List.mem_append_right _ (List.mem_singleton_self s)

/-- What is asked for depends on the records of the current session. -/
theorem needed?_of_current (hs : j.current = some s) (first last : Position) :
    j.needed? first last = Span.ofBounds? (s.store.resumeFrom first) last := by
  unfold needed?
  rw [hs]

/-- In the session that is the current one, no session is opened before. -/
theorem prepare_of_current {info : SessionInfo} {first last : Position}
    (hs : j.current = some s) (hid : s.id = info.id) (now : Instant) :
    j.prepare first last info now = (j, Span.ofBounds? (s.store.resumeFrom first) last) := by
  have hin : j.isIn info.id := (Option.any_eq_true _ _).mpr ⟨s, hs, decide_eq_true hid⟩
  unfold prepare
  rw [ensure_of_isIn hin]
  exact congrArg (Prod.mk j) (needed?_of_current hs first last)

/-- A session that is not the current one is opened after all others. -/
theorem ensure_of_not_isIn {info : SessionInfo} (h : j.isIn info.id = false) (latest : Position)
    (now : Instant) :
    j.ensure info latest now =
      { j with
        closed := j.sessions
        current := some ((Session.begin info j.tolerance).anchor latest now) } := by
  unfold ensure
  rw [if_neg (Bool.eq_false_iff.mp h)]

theorem mem_history {y : Placed} : y ∈ j.history ↔ ∃ s ∈ j.sessions, y ∈ s.history :=
  List.mem_flatMap

/-! ## The order of sessions -/

/-- How the sessions of a journal stand to each other and to the history. -/
structure WellKept (j : Journal) : Prop where
  /-- The session that receives records is the last one. -/
  last : j.current = j.sessions.getLast?
  /-- What is found at a position is of that position, which is not the unset mark. -/
  keyed : ∀ s ∈ j.sessions, ∀ p x, s.store.get? p = some x → x.position = p ∧ p.IsSet
  /-- The history tells one session after another. -/
  told : ∃ parts, List.Forall₂ Session.Tells j.sessions parts ∧ j.history = parts.flatten
  /-- Two sessions in a row have different ids. -/
  apart : j.sessions.IsChain (·.id ≠ ·.id)

/-- The history of any journal tells one session after another. -/
theorem exists_told (j : Journal) :
    ∃ parts, List.Forall₂ Session.Tells j.sessions parts ∧ j.history = parts.flatten := by
  refine ⟨j.sessions.map Session.history, ?_, ?_⟩
  · rw [List.forall₂_map_right_iff, List.forall₂_same]
    exact fun s _ => s.tells_history
  · rw [history, List.flatMap_def]

/-- Two sessions in a row have different ids, said of the ids alone. -/
theorem isChain_ids {ss : List Session} :
    ss.IsChain (·.id ≠ ·.id) ↔ (ss.map Session.id).IsChain (· ≠ ·) :=
  (List.isChain_map Session.id).symm

/-! ## Journals that go on -/

/-- The journal `k` has all that the journal `j` has, in its place. -/
structure Extends (j k : Journal) : Prop where
  /-- No session is lost. -/
  length_le : j.sessions.length ≤ k.sessions.length
  /-- At most one session is opened. -/
  le_length : k.sessions.length ≤ j.sessions.length + 1
  /-- A session that is not the last one is as it was. -/
  frozen : ∀ i, i + 1 < k.sessions.length → k.sessions[i]? = j.sessions[i]?
  /-- What a session held it holds. -/
  held : ∀ (i : ℕ) (s : Session), j.sessions[i]? = some s →
    ∃ t, k.sessions[i]? = some t ∧ t.id = s.id ∧ ∀ p ∈ s.store, p ∈ t.store

theorem Extends.refl (j : Journal) : j.Extends j where
  length_le := Nat.le_refl _
  le_length := Nat.le_succ _
  frozen _ _ := rfl
  held _ s hs := ⟨s, hs, rfl, fun _ hp => hp⟩

/-- Whatever stands in a list with one more at its end stood there before, or is that one. -/
theorem getElem?_concat_cases {ss : List Session} {i : ℕ} (h : (ss ++ [s])[i]? = some t) :
    ss[i]? = some t ∨ i = ss.length ∧ t = s := by
  by_cases hi : i < ss.length
  · rw [List.getElem?_append_left hi] at h
    exact .inl h
  · rw [List.getElem?_append_right (Nat.not_lt.mp hi), List.getElem?_singleton] at h
    split at h
    · next hzero => exact .inr ⟨by omega, (Option.some_inj.mp h).symm⟩
    · cases h

/-- A journal whose current session gets more records has all that it had. -/
theorem Extends.revised (hs : j.current = some s) (hid : t.id = s.id)
    (hheld : ∀ p ∈ s.store, p ∈ t.store) : j.Extends { j with current := some t } := by
  have hj := sessions_of_current hs
  have hk : ({ j with current := some t } : Journal).sessions = j.closed ++ [t] := rfl
  have hlength : ({ j with current := some t } : Journal).sessions.length = j.sessions.length := by
    rw [hj, hk, List.length_append, List.length_append]
    rfl
  constructor
  case length_le => exact hlength.ge
  case le_length => exact hlength.le.trans (Nat.le_succ _)
  case frozen =>
    intro i hi
    rw [hk, List.length_append, List.length_singleton] at hi
    rw [hj, hk, List.getElem?_append_left (by omega), List.getElem?_append_left (by omega)]
  case held =>
    intro i s' hs'
    rw [hj] at hs'
    rw [hk]
    rcases getElem?_concat_cases hs' with hclosed | ⟨rfl, rfl⟩
    · obtain ⟨hi, -⟩ := List.getElem?_eq_some_iff.mp hclosed
      exact ⟨s', (List.getElem?_append_left hi).trans hclosed, rfl, fun _ hp => hp⟩
    · exact ⟨t, List.getElem?_concat_length, hid, hheld⟩

/-- A journal in which a session is opened has all that it had, as it was. -/
theorem Extends.opened (j : Journal) (t : Session) :
    j.Extends { j with closed := j.sessions, current := some t } := by
  have hk : ({ j with closed := j.sessions, current := some t } : Journal).sessions =
      j.sessions ++ [t] := rfl
  have hlength : ({ j with closed := j.sessions, current := some t } : Journal).sessions.length =
      j.sessions.length + 1 := by
    rw [hk, List.length_append]
    rfl
  constructor
  case length_le => exact hlength.ge.trans' (Nat.le_succ _)
  case le_length => exact hlength.le
  case frozen =>
    intro i hi
    rw [hk, List.length_append, List.length_singleton] at hi
    rw [hk, List.getElem?_append_left (by omega)]
  case held =>
    intro i s hs
    obtain ⟨hi, -⟩ := List.getElem?_eq_some_iff.mp hs
    exact ⟨s, (List.getElem?_append_left hi).trans hs, rfl, fun _ hp => hp⟩

end Journal

end Logbook
