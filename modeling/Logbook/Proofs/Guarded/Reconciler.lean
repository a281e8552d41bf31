import Logbook.Proofs.Guarded.Session
import Logbook.Proofs.Reconciler.Run

/-!
# Reconcilers on machine words

The handlers that look for holes and make requests are carried out here with every step checked,
and with the tolerance of a new session looked at once more, as a session does that is opened. What
a reconciler is left with is told apart from what it answers, so that a refused event can be seen
to leave it as it is.

- `Guarded.onCursor`, `Guarded.onBulk`, `Guarded.onStart`: the handlers.
- `Guarded.handle`: an event as it comes in.
- `Guarded.handle_after_run`: after every run every event comes through, and only those for another
  device are refused.
-/

namespace Logbook.Guarded

open Reconciler Rehearsal Script

/-! ## The handlers -/

/-- One reaction after another, where the second one may fault. -/
def andThen (a : Reaction) (f : Reconciler → Guarded Reaction) : Guarded Reaction := do
  let b ← f a.next
  return ⟨b.next, a.sent ++ b.sent, a.notes ++ b.notes⟩

/-- The hole to be filled next. -/
def nextGap? (r : Reconciler) (status : Status) : Guarded (Option Span) := do
  if 0 < (← dropped status) then
    match status.span?, r.journal.current with
    | some span, some s => gap? s.store (max span.first r.floor) span.last
    | _, _ => return none
  else return none

/-- Asks for the next hole, if holes are filled at all; without one, publishes what the session
holds. -/
def repair (r : Reconciler) (status : Status) (cursor : Position) : Guarded Reaction := do
  match ← nextGap? r status, r.journal.current with
  | some gap, some s =>
    if r.backfillOnGap then
      let s ← request s gap cursor.next
      return {
        next := { r with journal := { r.journal with current := some s }, backfill := some gap }
        sent := [⟨r.device, .request gap⟩]
        notes := s.requestNotes gap ++ [.backfillOut r.device gap] }
    else return r.publish (.ofStatus status)
  | _, _ => return r.publish (.ofStatus status)

/-- Takes a record into the current session while the log is complete. -/
def cursorComplete (r : Reconciler) (s : Session) (record : Record) : Guarded Reaction :=
  let s' := s.receiveCursor record
  let taken := { r with journal := { r.journal with current := some s' } }.quiet
    (s.cursorNotes record)
  let taken := if s'.isStalled then taken.andThen abandonBackfill else taken
  if taken.next.backfill.isSome then .ok taken
  else andThen taken (repair · s'.status record.position)

/-- The device pushes a record of the session that it is in. -/
def onCursor (r : Reconciler) (record : Record) (info : SessionInfo) : Guarded Reaction :=
  match r.state, r.journal.current with
  | .unavailable, _ => .ok (r.publish .transferNeeded)
  | .transferNeeded, _ => .ok (r.quiet [])
  | .inProgress .., some s =>
    .ok (if s.id = info.id then r.cursorInProgress s record else r.leaveSession info.id)
  | .complete .., some s =>
    if s.id = info.id then cursorComplete r s record else .ok (r.leaveSession info.id)
  | _, none => .ok (r.leaveSession info.id)

/-- Publishes what the session holds, unless a hole is yet to be filled. -/
def refresh (r : Reconciler) (status : Status) : Guarded Reaction := do
  if r.backfillOnGap then
    if (← nextGap? r status).isSome then return r.quiet []
    else return r.publish (.ofStatus status)
  else return r.publish (.ofStatus status)

/-- The device answers a request with a record. -/
def onBulk (r : Reconciler) (record : Record) : Guarded Reaction :=
  match r.journal.current with
  | none => .ok (r.quiet [.bulkHomeless r.device record.position])
  | some s =>
    let s' := s.receiveBulk record
    let taken := { r with journal := { r.journal with current := some s' } }.quiet
      (s.bulkNotes record)
    match r.state with
    | .inProgress .. =>
      if s'.progress.isComplete then .ok (taken.andThen finish)
      else
        .ok (taken.andThen
          (·.publish (.inProgress s'.progress.transferred s'.progress.requested)))
    | .complete .. =>
      if r.backfill.isNone then andThen taken (refresh · s'.status)
      else if s'.progress.isComplete then
        andThen (taken.andThen fun r => r.dropBackfill [.backfillComplete r.device])
          (refresh · s'.status)
      else .ok taken
    | .unavailable | .transferNeeded =>
      .ok (taken.andThen fun r => r.quiet [.bulkLate r.device record.position])

/-- The journal with the given session as the current one. The tolerance of a session that is
opened may be refused. -/
def ensure (j : Journal) (info : SessionInfo) (latest : Position) (now : Instant) :
    Except Refusal Journal :=
  if j.isIn info.id then .ok j
  else do
    let tolerance ← Tolerance.ofTicks j.tolerance.ticks
    return { j with
      closed := j.sessions
      current := some ((Session.begin info tolerance).anchor latest now) }

/-- What is to be asked for so that the current session holds all positions from `first` to
`last`. -/
def needed? (j : Journal) (first last : Position) : Guarded (Option Span) :=
  match j.current with
  | some s => do return Span.ofBounds? (← resumeFrom s.store first) last
  | none => .ok (Span.ofBounds? first last)

/-- Asks for the span of a transfer. -/
def requestTransfer (r : Reconciler) (span : Span) : Guarded Reaction :=
  match r.journal.current with
  | none => .ok (r.quiet [])
  | some s => do
    let s ← request s span span.last.next
    let asked : Reaction := {
      next := { r with journal := { r.journal with current := some s } }
      sent := [⟨r.device, .request span⟩]
      notes := s.requestNotes span ++ [.transferOut r.device span s.progress.expected] }
    if s.progress.isComplete then return asked.andThen finish
    else
      return asked.andThen
        (·.publish (.inProgress s.progress.transferred s.progress.requested))

/-- The caller wants all positions from `first` to `last`. -/
def onStart (r : Reconciler) (first last : Position) (info : SessionInfo) (now : Instant) :
    Guarded (Except Refusal Reaction) :=
  match ensure r.journal info last now.notBeforeEpoch with
  | .error cause => .ok (.error cause)
  | .ok journal => do
    let ready := { r with journal := journal, backfill := none }.quiet (r.journal.ensureNotes info)
    match ← needed? journal first last with
    | some span => return .ok (← andThen ready (requestTransfer · span))
    | none =>
      return .ok (ready.andThen fun r => (r.quiet [.nothingNeeded r.device]).andThen finish)

/-- The reaction to an event at the reconciler's own device, at the time `now`. -/
def react (r : Reconciler) (now : Instant) : Event → Guarded (Except Refusal Reaction)
  | .link connected => .ok (.ok (r.onLink connected))
  | .cursor record info => do return .ok (← onCursor r record info)
  | .bulk record => do return .ok (← onBulk r record)
  | .start first last info => onStart r first last info now
  | .cancel => .ok (.ok r.onCancel)

/-- An event as it comes in, at the time `now`: the reconciler afterwards, and what it sends or why
it refuses the event. -/
def handle (r : Reconciler) (now : Instant) (m : Inbound) :
    Guarded (Reconciler × Except Reconciler.Error (List Outbound)) :=
  if m.device = r.device then do
    match ← react r now m.event with
    | .ok a => return (a.next, .ok a.sent)
    | .error cause => return (r, .error (.policy cause))
  else .ok (r, .error (.misrouted r.device m.device))

/-! ## They come through -/

variable {r : Reconciler} {a : Reaction} {status : Status}

/-- What is got without a failure is got without a fault. -/
theorem ok_of_ok {ε : Type} {b : Reaction} (h : (.ok b : Except ε Reaction) = .ok a) :
    (.ok b : Guarded Reaction) = .ok a := congrArg Except.ok (Except.ok.inj h)

theorem nextGap?_eq (r : Reconciler) (status : Status) :
    nextGap? r status = .ok (r.nextGap? status) := by
  unfold nextGap? Reconciler.nextGap? Status.hasDropped Journal.gap?
  rw [dropped_eq, ok_bind]
  by_cases h : 0 < status.dropped
  · rw [if_pos h, if_pos (decide_eq_true h)]
    cases status.span? with
    | none => rfl
    | some span =>
      cases r.journal.current with
      | none => rfl
      | some s => exact gap?_eq ..
  · rw [if_neg h, if_neg (by simpa using h)]
    rfl

/-- A hole that is found makes a span in order, so that it can be asked for. -/
theorem repair_of_ok {cursor : Position} (h : r.repair status cursor = .ok a) :
    repair r status cursor = .ok a := by
  have hpublish (hnone : r.repairable? status = none) : .ok (r.publish (.ofStatus status)) =
      (.ok a : Guarded Reaction) := by
    rw [repair_of_none hnone] at h
    cases h
    rfl
  unfold repair
  rw [nextGap?_eq, ok_bind]
  cases hgap : r.nextGap? status with
  | none =>
    refine hpublish ?_
    rw [repairable?, hgap, ite_self]
  | some gap =>
    by_cases hon : r.backfillOnGap
    · have hsome : r.repairable? status = some gap := by
        rw [repairable?, if_pos hon, hgap]
      obtain ⟨-, s, span, hs, -, hfirst, hset⟩ := repairable?_eq_some hsome
      rw [Reconciler.repair, hsome, hs] at h
      rw [hs]
      dsimp only at h ⊢
      rw [if_pos hon, request_of_ordered hfirst.ordered hset, ok_bind]
      rw [Session.requestBackfill, Session.request_of_ordered hfirst.ordered] at h
      cases h
      rfl
    · have hnone := hpublish (by rw [repairable?, if_neg hon])
      cases r.journal.current with
      | none => exact hnone
      | some s =>
        dsimp only
        rw [if_neg hon]
        exact hnone

/-- If a reaction does not fail, its checked form comes through. -/
theorem andThen_of_tryThen {f : Reconciler → Except RequestError Reaction}
    {g : Reconciler → Guarded Reaction} {c : Reaction}
    (hfg : ∀ {b}, f a.next = .ok b → g a.next = .ok b) (h : a.tryThen f = .ok c) :
    andThen a g = .ok c := by
  unfold Reaction.tryThen at h
  unfold andThen
  cases hb : f a.next with
  | error e =>
    rw [hb] at h
    cases h
  | ok b =>
    rw [hb] at h
    cases h
    rw [hfg hb]
    rfl

theorem andThen_eq {f : Reconciler → Reaction} {g : Reconciler → Guarded Reaction}
    (hfg : g a.next = .ok (f a.next)) : andThen a g = .ok (a.andThen f) := by
  unfold andThen
  rw [hfg]
  rfl

theorem cursorComplete_of_ok {s : Session} {x : Record} (h : r.cursorComplete s x = .ok a) :
    cursorComplete r s x = .ok a := by
  revert h
  unfold Reconciler.cursorComplete cursorComplete
  dsimp only
  -- the reaction as far as no hole is looked for
  generalize (if (s.receiveCursor x).isStalled then _ else _) = taken
  by_cases hout : taken.next.backfill.isSome
  · rw [if_pos hout, if_pos hout]
    exact ok_of_ok
  · rw [if_neg hout, if_neg hout]
    exact andThen_of_tryThen repair_of_ok

theorem onCursor_of_ok {x : Record} {info : SessionInfo} (h : r.onCursor x info = .ok a) :
    onCursor r x info = .ok a := by
  revert h
  unfold Reconciler.onCursor onCursor
  cases r.state with
  | unavailable | transferNeeded => exact ok_of_ok
  | inProgress => cases r.journal.current <;> exact ok_of_ok
  | complete =>
    cases r.journal.current with
    | none => exact ok_of_ok
    | some s =>
      dsimp only
      split
      · exact cursorComplete_of_ok
      · exact ok_of_ok

theorem refresh_eq (r : Reconciler) (status : Status) :
    refresh r status = .ok (r.refresh status) := by
  unfold refresh Reconciler.refresh repairable?
  by_cases hon : r.backfillOnGap
  · rw [if_pos hon, if_pos hon, nextGap?_eq, ok_bind]
    split <;> rfl
  · rw [if_neg hon, if_neg hon]
    rfl

theorem onBulk_eq (r : Reconciler) (x : Record) : onBulk r x = .ok (r.onBulk x) := by
  unfold onBulk Reconciler.onBulk
  cases r.journal.current with
  | none => rfl
  | some s =>
    dsimp only
    cases r.state with
    | unavailable | transferNeeded => rfl
    | inProgress =>
      dsimp only
      split <;> rfl
    | complete =>
      dsimp only
      split
      · exact andThen_eq (refresh_eq ..)
      · split
        · exact andThen_eq (refresh_eq ..)
        · rfl

/-! ## Transfers come through -/

/-- The tolerance of a reconciler is not refused. -/
theorem ensure_eq (j : Journal) (info : SessionInfo) (latest : Position) (now : Instant) :
    ensure j info latest now = .ok (j.ensure info latest now) := by
  have htolerance : Tolerance.ofTicks j.tolerance.ticks = .ok j.tolerance :=
    dif_pos j.tolerance.ticks_ne_zero
  unfold ensure Journal.ensure
  split
  · rfl
  · rw [htolerance]
    rfl

theorem needed?_eq {j : Journal} (h : ∀ s, j.current = some s → ∀ p ∈ s.store, p.IsSet)
    (first last : Position) : needed? j first last = .ok (j.needed? first last) := by
  unfold needed? Journal.needed?
  cases hs : j.current with
  | none => rfl
  | some s =>
    dsimp only
    rw [resumeFrom_eq (h s hs), ok_bind]
    rfl

theorem requestTransfer_of_ok {span : Span} (hspan : span.Ordered) (hset : span.last.IsSet)
    (h : r.requestTransfer span = .ok a) : requestTransfer r span = .ok a := by
  unfold Reconciler.requestTransfer at h
  unfold requestTransfer
  cases hs : r.journal.current with
  | none =>
    rw [hs] at h
    cases h
    rfl
  | some s =>
    rw [hs] at h
    dsimp only at h ⊢
    rw [Session.requestTransfer, Session.request_of_ordered hspan, ok_bind] at h
    rw [request_of_ordered hspan hset, ok_bind]
    by_cases hdone : (s.asked span span.last.next).progress.isComplete
    · rw [if_pos hdone] at h ⊢
      exact ok_of_ok h
    · rw [if_neg hdone] at h ⊢
      exact ok_of_ok h

/-- The unset mark is not held by the session that is opened. -/
theorem isSet_of_opened {s : Session} {info : SessionInfo} {last : Position} {now : Instant}
    (hr : ∀ p, r.holds p → p.IsSet) (hs : (r.opened info last now).journal.current = some s)
    {p : Position} (hp : p ∈ s.store) : p.IsSet := by
  rcases r.opened_cases info last now with ⟨-, heq⟩ | ⟨-, hcurrent⟩
  · rw [heq] at hs
    exact hr p ((holds_of_current hs).mpr hp)
  · obtain rfl := Option.some_inj.mp (hs.symm.trans hcurrent)
    rw [Session.store_anchor] at hp
    exact absurd hp (Store.not_mem_empty p)

theorem onStart_of_ok {first last : Position} {info : SessionInfo} {now : Instant}
    (hr : ∀ p, r.holds p → p.IsSet) (h : r.onStart first last info now = .ok a) :
    onStart r first last info now = .ok (.ok a) := by
  have hneeded : needed? (r.journal.ensure info last now.notBeforeEpoch) first last =
      .ok ((r.opened info last now).journal.needed? first last) :=
    needed?_eq (fun s hs p hp => isSet_of_opened hr hs hp) first last
  rw [onStart_eq] at h
  unfold onStart
  rw [ensure_eq]
  dsimp only
  rw [hneeded, ok_bind]
  cases hneed : (r.opened info last now).journal.needed? first last with
  | none =>
    rw [hneed] at h
    cases h
    rfl
  | some span =>
    obtain ⟨hordered, hlast, hset⟩ := ordered_of_needed? hneed
    have hasked : andThen ((r.opened info last now).quiet (r.journal.ensureNotes info))
        (requestTransfer · span) = .ok a := by
      rw [hneed] at h
      exact andThen_of_tryThen (requestTransfer_of_ok hordered (hlast ▸ hset)) h
    show (andThen ((r.opened info last now).quiet _) (requestTransfer · span) >>= _) = _
    rw [hasked]
    rfl

/-! ## Events -/

/-- Every event at the reconciler's own device comes through and is not refused. -/
theorem react_of_ok {now : Instant} {e : Event} (hr : ∀ p, r.holds p → p.IsSet)
    (h : r.react now e = .ok a) : react r now e = .ok (.ok a) := by
  cases e with
  | link connected =>
    cases h
    rfl
  | cursor x info =>
    rw [react, onCursor_of_ok h]
    rfl
  | bulk x =>
    cases h
    rw [react, onBulk_eq]
    rfl
  | start first last info => exact onStart_of_ok hr h
  | cancel =>
    cases h
    rfl

/-- **After every run every event comes through.** One at the reconciler's own device has a
reaction; one for another device is refused, and leaves the reconciler as it is. There is no other
refusal. -/
theorem handle_after_run {device : DeviceId} {policy : Policy} {past : List Moment}
    (h : Run (begin device policy) past r) (now : Instant) (m : Inbound) :
    (m.device = device → ∃ a, r.handle now m = .ok a ∧
      handle r now m = .ok (a.next, .ok a.sent)) ∧
    (m.device ≠ device → r.handle now m = .error (.misrouted device m.device) ∧
      handle r now m = .ok (r, .error (.misrouted device m.device))) := by
  have hdevice : r.device = device := (Prod.ext_iff.mp h.settings).1
  obtain ⟨d, e⟩ := m
  subst hdevice
  constructor
  · rintro rfl
    obtain ⟨a, ha, -⟩ := exists_react r now e
    have hreact : r.react now e = .ok a := by
      rw [Reconciler.handle, if_pos rfl] at ha
      cases hb : r.react now e with
      | error cause =>
        rw [hb] at ha
        cases ha
      | ok b =>
        rw [hb] at ha
        exact congrArg Except.ok (Except.ok.inj ha)
    refine ⟨a, ha, ?_⟩
    rw [handle, if_pos rfl, react_of_ok (fun p => h.isSet_of_holds rfl) hreact]
    rfl
  · intro hother
    exact ⟨if_neg hother, if_neg hother⟩

/-- The largest transfer that there is comes through, and so does what is out of order. -/
theorem handle_after_start :
    ∃ past r, Run (begin Device.standard.id .standard) past r ∧
      (∃ a, r.handle now (Device.standard.start .zero .last) = .ok a ∧
        handle r now (Device.standard.start .zero .last) = .ok (a.next, .ok a.sent)) ∧
      handle r now ⟨⟨0⟩, .cancel⟩ =
        .ok (r, .error (.misrouted Device.standard.id ⟨0⟩)) := by
  have hrun := run_rehearse .standard [Device.standard.start .last .zero]
  obtain ⟨hown, -⟩ := handle_after_run hrun now (Device.standard.start .zero .last)
  obtain ⟨-, hother⟩ := handle_after_run hrun now ⟨⟨0⟩, .cancel⟩
  exact ⟨_, _, hrun, hown rfl, (hother (by decide)).2⟩

end Logbook.Guarded
