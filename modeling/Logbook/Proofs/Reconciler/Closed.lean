import Logbook.Proofs.Reconciler.Step

/-!
# Closed sessions play no part

Once a session is closed, its records are history: no handler reads them. Two reconcilers that
differ in nothing but their closed sessions react alike to everything, and stay so.

- `Reconciler.withClosed`: the reconciler with other closed sessions.
- `Reaction.core`: a reaction, but for the closed sessions.
- `Reconciler.core_handle`: the closed sessions make no difference to the core of a reaction.
- `Reconciler.watch`, `Reconciler.watch_withClosed`: nor to anything that is seen of a
  reconciler while events come in.
-/

namespace Logbook

/-- The reconciler with other closed sessions. -/
def Reconciler.withClosed (r : Reconciler) (closed : List Session) : Reconciler :=
  { r with journal := { r.journal with closed := closed } }

/-- What callers see of a reconciler. -/
structure Face where
  state : UploadState
  status : Option Status
  backfill : Option Span
deriving DecidableEq

/-- What callers see of the reconciler. -/
def Reconciler.face (r : Reconciler) : Face := ⟨r.state, r.status?, r.backfill⟩

/-- A reaction, but for the closed sessions. -/
def Reaction.core (a : Reaction) : Reconciler × List Outbound := (a.next.withClosed [], a.sent)

namespace Reconciler

/-! ## Reactions in turn -/

/-- Two outcomes that are alike have failed alike, or both have a result. -/
theorem cases_of_map_eq {ε α β : Type} {x y : Except ε α} {f : α → β} (h : x.map f = y.map f) :
    (∃ e, x = .error e ∧ y = .error e) ∨ ∃ a b, x = .ok a ∧ y = .ok b ∧ f a = f b := by
  cases x with
  | error e =>
    cases y with
    | error e' => cases h; exact .inl ⟨e, rfl, rfl⟩
    | ok b => cases h
  | ok a =>
    cases y with
    | error e' => cases h
    | ok b => exact .inr ⟨a, b, rfl, rfl, Except.ok.inj h⟩

section Turns

variable {a b : Reaction}

theorem core_andThen {f : Reconciler → Reaction} (h : a.core = b.core)
    (hf : ∀ r closed, (f (r.withClosed closed)).core = (f r).core) :
    (a.andThen f).core = (b.andThen f).core := by
  obtain ⟨hnext, hsent⟩ := Prod.ext_iff.mp h
  have hnext : a.next.withClosed [] = b.next.withClosed [] := hnext
  have hthen : (f a.next).core = (f b.next).core := by
    rw [← hf a.next [], ← hf b.next [], hnext]
  obtain ⟨hnext', hsent'⟩ := Prod.ext_iff.mp hthen
  exact Prod.ext hnext' (congrArg₂ (· ++ ·) hsent hsent')

theorem core_tryThen {f : Reconciler → Except RequestError Reaction} (h : a.core = b.core)
    (hf : ∀ r closed, (f (r.withClosed closed)).map Reaction.core = (f r).map Reaction.core) :
    (a.tryThen f).map Reaction.core = (b.tryThen f).map Reaction.core := by
  obtain ⟨hnext, hsent⟩ := Prod.ext_iff.mp h
  have hnext : a.next.withClosed [] = b.next.withClosed [] := hnext
  have hthen : (f a.next).map Reaction.core = (f b.next).map Reaction.core := by
    rw [← hf a.next [], ← hf b.next [], hnext]
  unfold Reaction.tryThen
  rcases cases_of_map_eq hthen with ⟨e, ha, hb⟩ | ⟨c, d, ha, hb, hcore⟩
  · rw [ha, hb]
    rfl
  · obtain ⟨hnext', hsent'⟩ := Prod.ext_iff.mp hcore
    rw [ha, hb]
    exact congrArg Except.ok (Prod.ext hnext' (congrArg₂ (· ++ ·) hsent hsent'))

end Turns

/-! ## The handlers -/

section Handlers

variable (r : Reconciler) (closed : List Session)

theorem core_publish (state : UploadState) :
    ((r.withClosed closed).publish state).core = (r.publish state).core := by
  have hst : (r.withClosed closed).state = r.state := rfl
  unfold publish
  rw [hst]
  split <;> rfl

theorem core_finish : (r.withClosed closed).finish.core = r.finish.core := by
  have hstatus : (r.withClosed closed).status? = r.status? := rfl
  unfold finish
  rw [hstatus]
  cases r.status? with
  | none => rfl
  | some status => exact core_publish { r with journal := r.journal.update Session.finish } closed _

theorem core_onLink (connected : Bool) :
    ((r.withClosed closed).onLink connected).core = (r.onLink connected).core := by
  have hst : (r.withClosed closed).state = r.state := rfl
  unfold onLink
  rw [hst]
  split
  · rfl
  · exact core_andThen rfl fun r closed => core_publish r closed _

theorem core_leaveSession (id : SessionId) :
    ((r.withClosed closed).leaveSession id).core = (r.leaveSession id).core :=
  core_andThen rfl fun r closed => core_publish r closed _

theorem core_abandonBackfill :
    (r.withClosed closed).abandonBackfill.core = r.abandonBackfill.core := by
  have hgap : (r.withClosed closed).backfill = r.backfill := rfl
  unfold abandonBackfill
  rw [hgap]
  cases r.backfill <;> rfl

theorem core_repair (status : Status) (cursor : Position) :
    ((r.withClosed closed).repair status cursor).map Reaction.core =
      (r.repair status cursor).map Reaction.core := by
  have hgap : (r.withClosed closed).repairable? status = r.repairable? status := rfl
  have hcurrent : (r.withClosed closed).journal.current = r.journal.current := rfl
  unfold repair
  rw [hgap, hcurrent]
  cases r.repairable? status with
  | none => exact congrArg Except.ok (core_publish r closed _)
  | some gap =>
    cases r.journal.current with
    | none => exact congrArg Except.ok (core_publish r closed _)
    | some s =>
      dsimp only
      cases s.requestBackfill gap cursor <;> rfl

theorem core_cursorInProgress (s : Session) (x : Record) :
    ((r.withClosed closed).cursorInProgress s x).core = (r.cursorInProgress s x).core := by
  unfold cursorInProgress
  dsimp only
  split
  · exact core_andThen rfl fun r closed => core_andThen rfl core_finish
  · rfl

theorem core_cursorComplete (s : Session) (x : Record) :
    ((r.withClosed closed).cursorComplete s x).map Reaction.core =
      (r.cursorComplete s x).map Reaction.core := by
  -- both look at nothing but the hole of what came before
  have hrest {a b : Reaction} (h : a.core = b.core) :
      (if a.next.backfill.isSome then .ok a
        else a.tryThen (·.repair (s.receiveCursor x).status x.position)).map Reaction.core =
      (if b.next.backfill.isSome then .ok b
        else b.tryThen (·.repair (s.receiveCursor x).status x.position)).map Reaction.core := by
    have hgap : a.next.backfill = b.next.backfill := congrArg (·.1.backfill) h
    rw [hgap]
    split
    · exact congrArg Except.ok h
    · exact core_tryThen h fun r closed => core_repair r closed _ _
  refine hrest ?_
  dsimp only
  split
  · exact core_andThen rfl core_abandonBackfill
  · rfl

theorem core_onCursor (x : Record) (info : SessionInfo) :
    ((r.withClosed closed).onCursor x info).map Reaction.core =
      (r.onCursor x info).map Reaction.core := by
  have hst : (r.withClosed closed).state = r.state := rfl
  have hcurrent : (r.withClosed closed).journal.current = r.journal.current := rfl
  have hleave : ((r.withClosed closed).leaveSession info.id).core =
      (r.leaveSession info.id).core := core_leaveSession ..
  unfold onCursor
  rw [hst, hcurrent]
  cases r.state with
  | unavailable => exact congrArg Except.ok (core_publish r closed _)
  | transferNeeded => rfl
  | inProgress =>
    cases r.journal.current with
    | none => exact congrArg Except.ok hleave
    | some s =>
      dsimp only
      split
      · exact congrArg Except.ok (core_cursorInProgress ..)
      · exact congrArg Except.ok hleave
  | complete =>
    cases r.journal.current with
    | none => exact congrArg Except.ok hleave
    | some s =>
      dsimp only
      split
      · exact core_cursorComplete ..
      · exact congrArg Except.ok hleave

theorem core_refresh (status : Status) :
    ((r.withClosed closed).refresh status).core = (r.refresh status).core := by
  have hgap : (r.withClosed closed).repairable? status = r.repairable? status := rfl
  unfold refresh
  rw [hgap]
  split
  · rfl
  · exact core_publish ..

theorem core_onBulk (x : Record) : ((r.withClosed closed).onBulk x).core = (r.onBulk x).core := by
  have hst : (r.withClosed closed).state = r.state := rfl
  have hcurrent : (r.withClosed closed).journal.current = r.journal.current := rfl
  have hgap : (r.withClosed closed).backfill = r.backfill := rfl
  unfold onBulk
  rw [hcurrent]
  cases r.journal.current with
  | none => rfl
  | some s =>
    dsimp only
    rw [hst, hgap]
    cases r.state with
    | unavailable => rfl
    | transferNeeded => rfl
    | inProgress =>
      dsimp only
      split
      · exact core_andThen rfl core_finish
      · exact core_andThen rfl fun r closed => core_publish r closed _
    | complete =>
      dsimp only
      split
      · exact core_andThen rfl fun r closed => core_refresh r closed _
      · split
        · exact core_andThen rfl fun r closed => core_refresh r closed _
        · rfl

theorem core_requestTransfer (span : Span) :
    ((r.withClosed closed).requestTransfer span).map Reaction.core =
      (r.requestTransfer span).map Reaction.core := by
  have hcurrent : (r.withClosed closed).journal.current = r.journal.current := rfl
  unfold requestTransfer
  rw [hcurrent]
  cases r.journal.current with
  | none => rfl
  | some s =>
    dsimp only
    cases s.requestTransfer span with
    | error => rfl
    | ok s =>
      show Except.map Reaction.core (if s.progress.isComplete then _ else _) =
        Except.map Reaction.core (if s.progress.isComplete then _ else _)
      split
      · exact congrArg Except.ok (core_andThen rfl core_finish)
      · exact congrArg Except.ok (core_andThen rfl fun r closed => core_publish r closed _)

/-- Opening a session adds to the closed ones, or leaves them. -/
theorem opened_withClosed (info : SessionInfo) (last : Position) (now : Instant) :
    ∃ after, (r.withClosed closed).opened info last now =
      (r.opened info last now).withClosed after := by
  have hin : (r.withClosed closed).journal.isIn info.id = r.journal.isIn info.id := rfl
  unfold opened Journal.ensure
  rw [hin]
  split
  · exact ⟨closed, rfl⟩
  · exact ⟨_, rfl⟩

theorem core_onStart (first last : Position) (info : SessionInfo) (now : Instant) :
    ((r.withClosed closed).onStart first last info now).map Reaction.core =
      (r.onStart first last info now).map Reaction.core := by
  obtain ⟨after, hafter⟩ := opened_withClosed r closed info last now
  have hneed : ((r.withClosed closed).opened info last now).journal.needed? first last =
      (r.opened info last now).journal.needed? first last := by
    rw [hafter]
    rfl
  have hready (notes : List Note) :
      (((r.withClosed closed).opened info last now).quiet notes).core =
        ((r.opened info last now).quiet notes).core := by
    rw [hafter]
    rfl
  -- whichever sessions are closed, the one that is opened is the same
  rw [onStart_eq, onStart_eq, hneed]
  cases (r.opened info last now).journal.needed? first last with
  | none =>
    refine congrArg Except.ok (core_andThen ?_ fun r closed => core_andThen rfl core_finish)
    exact hready _
  | some span => exact core_tryThen (hready _) fun r closed => core_requestTransfer r closed _

theorem core_onCancel : (r.withClosed closed).onCancel.core = r.onCancel.core := by
  have hst : (r.withClosed closed).state = r.state := rfl
  have hgap : (r.withClosed closed).backfill = r.backfill := rfl
  unfold onCancel
  rw [hst, hgap]
  split
  · exact core_andThen rfl core_finish
  · split <;> rfl

theorem core_react (now : Instant) (e : Event) :
    ((r.withClosed closed).react now e).map Reaction.core = (r.react now e).map Reaction.core := by
  cases e with
  | link connected => exact congrArg Except.ok (core_onLink ..)
  | cursor x info => exact core_onCursor ..
  | bulk x => exact congrArg Except.ok (core_onBulk ..)
  | start first last info => exact core_onStart ..
  | cancel => exact congrArg Except.ok (core_onCancel ..)

/-- **The closed sessions make no difference to a reaction**, be it a refusal or not. -/
theorem core_handle (now : Instant) (m : Inbound) :
    ((r.withClosed closed).handle now m).map Reaction.core =
      (r.handle now m).map Reaction.core := by
  have hdevice : (r.withClosed closed).device = r.device := rfl
  have hreact := core_react r closed now m.event
  unfold handle
  rw [hdevice]
  split
  · rcases cases_of_map_eq hreact with ⟨e, ha, hb⟩ | ⟨a, b, ha, hb, hcore⟩
    · rw [ha, hb]
    · rw [ha, hb]
      exact congrArg Except.ok hcore
  · rfl

end Handlers

/-! ## Watching a reconciler -/

/-- What is seen of a reconciler while events come in: what is sent for each of them, or why it is
refused, and the face that is shown afterwards. -/
def watch (r : Reconciler) : List (Instant × Inbound) → List (Except Error (List Outbound) × Face)
  | [] => []
  | (now, m) :: rest =>
    match r.handle now m with
    | .ok a => (.ok a.sent, a.next.face) :: a.next.watch rest
    | .error e => (.error e, r.face) :: r.watch rest

theorem watch_of_ok {r : Reconciler} {now : Instant} {m : Inbound} {a : Reaction}
    (h : r.handle now m = .ok a) (ms : List (Instant × Inbound)) :
    r.watch ((now, m) :: ms) = (.ok a.sent, a.next.face) :: a.next.watch ms := by
  rw [watch, h]

theorem watch_of_error {r : Reconciler} {now : Instant} {m : Inbound} {e : Error}
    (h : r.handle now m = .error e) (ms : List (Instant × Inbound)) :
    r.watch ((now, m) :: ms) = (.error e, r.face) :: r.watch ms := by
  rw [watch, h]

/-- **Nobody can see the closed sessions.** -/
theorem watch_withClosed (r : Reconciler) (closed : List Session) (ms : List (Instant × Inbound)) :
    (r.withClosed closed).watch ms = r.watch ms := by
  induction ms generalizing r closed with
  | nil => rfl
  | cons m rest ih =>
    obtain ⟨now, m⟩ := m
    have hhandle := core_handle r closed now m
    rcases cases_of_map_eq hhandle with ⟨e, ha, hb⟩ | ⟨a, b, ha, hb, hcore⟩
    · rw [watch_of_error ha, watch_of_error hb, ih]
      rfl
    · obtain ⟨hnext, hsent⟩ := Prod.ext_iff.mp hcore
      have hnext : a.next.withClosed [] = b.next.withClosed [] := hnext
      have hsent : a.sent = b.sent := hsent
      have hface : a.next.face = b.next.face := by
        show (a.next.withClosed []).face = (b.next.withClosed []).face
        rw [hnext]
      have hrest : a.next.watch rest = b.next.watch rest := by
        rw [← ih a.next [], ← ih b.next [], hnext]
      rw [watch_of_ok ha, watch_of_ok hb, hsent, hface, hrest]

end Reconciler

end Logbook
