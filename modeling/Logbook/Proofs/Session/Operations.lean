import Logbook.Proofs.Session

/-!
# Whatever is done to a session

A session is opened without records, and from then on it is changed by a few operations only. None
of them takes a record away, places the session elsewhere in time or stores the unset mark, so
whatever is done to a session, this is true of it.

- `Session.Operation`, `Session.perform`: what can be done to a session.
- `Session.Continues`: what every operation leaves as it was, and what it can add.
- `Session.continues_of_perform`: no operation does more than that.
- `Session.Reached`: the sessions that operations lead to; they do not hold the unset mark.
-/

namespace Logbook.Session

variable {s t u : Session} {span : Span} {p : Position}

/-! ## Operations -/

/-- What can be done to a session. -/
inductive Operation
  | anchor (p : Position) (now : Instant)
  | requestTransfer (span : Span)
  | requestBackfill (span : Span) (cursor : Position)
  | receiveBulk (x : Record)
  | receiveCursor (x : Record)
  | finish
  | forgetCursor
deriving DecidableEq

/-- The session after an operation. Only a request may not be possible. -/
def perform (s : Session) : Operation → Except RequestError Session
  | .anchor p now => .ok (s.anchor p now)
  | .requestTransfer span => s.requestTransfer span
  | .requestBackfill span cursor => s.requestBackfill span cursor
  | .receiveBulk x => .ok (s.receiveBulk x)
  | .receiveCursor x => .ok (s.receiveCursor x)
  | .finish => .ok s.finish
  | .forgetCursor => .ok s.forgetCursor

/-- A request that was made is for a span in order. -/
theorem asked_of_request (h : s.request span p = .ok t) : span.Ordered ∧ t = s.asked span p := by
  by_cases hordered : span.Ordered
  · rw [request_of_ordered hordered, Except.ok.injEq] at h
    exact ⟨hordered, h.symm⟩
  · have hdisordered : ¬ span.first ≤ span.last := hordered
    unfold request at h
    rw [dif_neg hdisordered] at h
    cases h

/-! ## What operations have in common -/

/-- The session `t` goes on with what the session `s` has. -/
structure Continues (s t : Session) : Prop where
  info : t.info = s.info
  /-- The start is fixed once for all. -/
  start : s.start.isSome → t.start = s.start
  /-- What was held is held. -/
  held : ∀ p ∈ s.store, p ∈ t.store
  /-- What is new has a place in the stream. -/
  isSet : ∀ p ∈ t.store, p ∈ s.store ∨ p.IsSet

namespace Continues

theorem refl (s : Session) : s.Continues s := ⟨rfl, fun _ => rfl, fun _ hp => hp, fun _ => .inl⟩

theorem trans (h : s.Continues t) (h' : t.Continues u) : s.Continues u where
  info := h'.info.trans h.info
  start hstart := by
    have hkept := h.start hstart
    rw [← hkept] at hstart
    exact (h'.start hstart).trans hkept
  held p hp := h'.held p (h.held p hp)
  isSet p hp := (h'.isSet p hp).elim (h.isSet p) .inr

/-- A session with another store goes on, if the store has one record more. -/
theorem of_insert {x : Record} (hset : x.position.IsSet) (hinfo : t.info = s.info)
    (hstart : t.start = s.start) (hstore : t.store = s.store.insert x) : s.Continues t where
  info := hinfo
  start _ := hstart
  held p hp := by
    rw [hstore]
    exact Store.mem_insert.mpr (.inr hp)
  isSet p hp := by
    rw [hstore] at hp
    rcases Store.mem_insert.mp hp with rfl | hp
    · exact .inr hset
    · exact .inl hp

/-- A session goes on, if neither its store nor its place in time is changed. -/
theorem of_eq (hinfo : t.info = s.info) (hstart : t.start = s.start)
    (hstore : t.store = s.store) : s.Continues t where
  info := hinfo
  start _ := hstart
  held p hp := by rwa [hstore]
  isSet p hp := .inl (by rwa [hstore] at hp)

end Continues

theorem continues_anchor (s : Session) (p : Position) (now : Instant) :
    s.Continues (s.anchor p now) where
  info := s.info_anchor p now
  start hstart := by
    unfold anchor
    rw [if_pos (Bool.or_eq_true_iff.mpr (.inl hstart))]
  held q hq := by rwa [store_anchor]
  isSet q hq := .inl (by rwa [store_anchor] at hq)

theorem continues_receiveBulk (s : Session) (x : Record) : s.Continues (s.receiveBulk x) := by
  by_cases hset : x.position.IsSet
  · refine .of_insert hset ?_ ?_ (store_receiveBulk_of_isSet s hset)
    all_goals
      unfold receiveBulk
      rw [if_pos hset]
  · rw [receiveBulk_of_unset hset]
    exact .refl s

theorem continues_receiveCursor (s : Session) (x : Record) : s.Continues (s.receiveCursor x) := by
  rw [receiveCursor_eq]
  split
  · next hx => exact .of_insert hx.1 rfl rfl rfl
  · exact .of_eq rfl rfl rfl

/-- **Whatever is done to a session, it goes on** with its records and its place in time. -/
theorem continues_of_perform {o : Operation} (h : s.perform o = .ok t) : s.Continues t := by
  cases o with
  | anchor p now =>
    cases h
    exact continues_anchor s p now
  | requestTransfer span =>
    rw [(asked_of_request h).2]
    exact .of_eq rfl rfl rfl
  | requestBackfill span cursor =>
    rw [(asked_of_request h).2]
    exact .of_eq rfl rfl rfl
  | receiveBulk x =>
    cases h
    exact continues_receiveBulk s x
  | receiveCursor x =>
    cases h
    exact continues_receiveCursor s x
  | finish =>
    cases h
    exact .of_eq rfl rfl rfl
  | forgetCursor =>
    cases h
    exact .of_eq rfl rfl rfl

/-! ## Sessions that operations lead to -/

/-- Operations lead to the session, from one that was opened. -/
inductive Reached : Session → Prop
  | opened (info : SessionInfo) (tolerance : Tolerance) : Reached (begin info tolerance)
  | step {s t : Session} (o : Operation) (hs : Reached s) (ht : s.perform o = .ok t) : Reached t

/-- Whatever was done, the unset mark is not held. -/
theorem Reached.isSet (h : Reached s) : ∀ p ∈ s.store, p.IsSet := by
  induction h with
  | opened info tolerance => exact fun p hp => absurd hp (Store.not_mem_empty p)
  | step o _ ht ih =>
    intro p hp
    rcases (continues_of_perform ht).isSet p hp with hs | hset
    · exact ih p hs
    · exact hset

end Logbook.Session
