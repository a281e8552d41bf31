import Logbook.Proofs.Reconciler.Step
import Logbook.Rehearsal.Script

/-!
# Runs of a reconciler

A run is all that happened to a reconciler so far. It is told as its moments, the latest first,
so that an invariant may speak of the past as well as of the present.

- `Moment`, `Reconciler.Run`: the runs. An event that is refused leaves no trace.
- `Reconciler.Run.invariant`: what holds at the start and is kept by every rule holds after
  every run.
- `Reconciler.after`: the reconciler after one more stimulus.
- `Reconciler.replay`, `Reconciler.run_iff_replay`: the runs are what comes of lists of stimuli.
- `Reconciler.Run.append`: a run goes on where another one ends.
- `Reconciler.settings`: what no rule changes.
- `lastRequest?`, `sinceRequest`, `received`: what the past tells of requests and of positions.
- `Reconciler.Step.stores`: what a rule does to the held positions, and from it
  `Reconciler.Run.isSet_of_holds`.
-/

namespace Logbook

/-- What happened to which reconciler, and how it reacted. -/
structure Moment where
  before : Reconciler
  stimulus : Stimulus
  after : Reaction
deriving DecidableEq

namespace Reconciler

variable {r₀ r q : Reconciler} {u : Stimulus} {sent : List Outbound} {past : List Moment}

/-- From `r₀` on, the moments of the past led to a reconciler. -/
inductive Run (r₀ : Reconciler) : List Moment → Reconciler → Prop
  /-- Nothing happened yet. -/
  | start : Run r₀ [] r₀
  /-- An event was refused. -/
  | refused {past : List Moment} {r : Reconciler} {u : Stimulus} {e : Error}
      (h : Run r₀ past r) (hu : r.apply u = .error e) : Run r₀ past r
  /-- There was a reaction. -/
  | reacted {past : List Moment} {r : Reconciler} {u : Stimulus} {a : Reaction}
      (h : Run r₀ past r) (hu : r.apply u = .ok a) : Run r₀ (⟨r, u, a⟩ :: past) a.next

/-- **Invariants are proved rule by rule**: what holds at the start and is kept by every rule
holds after every run. -/
theorem Run.invariant {I : List Moment → Reconciler → Prop} (hstart : I [] r₀)
    (hstep : ∀ {past : List Moment} {r : Reconciler} {u : Stimulus} {a : Reaction}, I past r →
      Step r u a.next a.sent → I (⟨r, u, a⟩ :: past) a.next) (h : Run r₀ past r) : I past r := by
  induction h with
  | start => exact hstart
  | refused _ _ ih => exact ih
  | reacted _ hu ih => exact hstep ih (step_of_apply hu)

/-- Every moment of a run followed a rule. -/
theorem Run.step_of_mem {r₀ : Reconciler} (h : Run r₀ past r) {m : Moment} (hm : m ∈ past) :
    Step m.before m.stimulus m.after.next m.after.sent := by
  induction h with
  | start => cases hm
  | refused _ _ ih => exact ih hm
  | reacted _ hu ih =>
    rcases List.mem_cons.mp hm with rfl | hm
    · exact step_of_apply hu
    · exact ih hm

/-- The latest moment led to the present. -/
theorem Run.next_of_head? {r₀ : Reconciler} (h : Run r₀ past r) {m : Moment}
    (hm : past.head? = some m) : m.after.next = r := by
  induction h with
  | start => cases hm
  | refused _ _ ih => exact ih hm
  | reacted =>
    cases hm
    rfl

/-! ## Replays -/

/-- The past and the present after one more stimulus. -/
def advance (run : List Moment × Reconciler) (u : Stimulus) : List Moment × Reconciler :=
  match run.2.apply u with
  | .ok a => (⟨run.2, u, a⟩ :: run.1, a.next)
  | .error _ => run

/-- The reconciler after one more stimulus. One that is refused leaves it as it is. -/
def after (r : Reconciler) (u : Stimulus) : Reconciler :=
  match r.apply u with
  | .ok a => a.next
  | .error _ => r

theorem after_of_ok {a : Reaction} (h : r.apply u = .ok a) : r.after u = a.next := by
  unfold after
  rw [h]

theorem snd_advance (run : List Moment × Reconciler) (u : Stimulus) :
    (advance run u).2 = run.2.after u := by
  unfold advance after
  split <;> rfl

/-- After a stimulus the reconciler is as it was, or as a rule says. -/
theorem after_cases (r : Reconciler) (u : Stimulus) :
    r.after u = r ∨ ∃ sent, Step r u (r.after u) sent := by
  unfold after
  split
  · next hu => exact .inr ⟨_, step_of_apply hu⟩
  · exact .inl rfl

/-- After an event at its own device the reconciler is as a rule says. -/
theorem exists_step_after (r : Reconciler) (now : Instant) (e : Event) :
    ∃ sent, Step r (.event now ⟨r.device, e⟩) (r.after (.event now ⟨r.device, e⟩)) sent := by
  obtain ⟨a, ha, hstep⟩ := exists_react r now e
  have hafter : r.after (.event now ⟨r.device, e⟩) = a.next := after_of_ok ha
  rw [hafter]
  exact ⟨a.sent, hstep⟩

/-- The past and the present after all this happened to a reconciler. -/
def replay (r : Reconciler) (us : List Stimulus) : List Moment × Reconciler :=
  us.foldl advance ([], r)

theorem replay_concat (r : Reconciler) (us : List Stimulus) (u : Stimulus) :
    r.replay (us ++ [u]) = advance (r.replay us) u := by
  rw [replay, replay, List.foldl_append, List.foldl_cons, List.foldl_nil]

/-- What happened before is not looked at. -/
theorem foldl_advance (past : List Moment) (r : Reconciler) (us : List Stimulus) :
    us.foldl advance (past, r) = ((r.replay us).1 ++ past, (r.replay us).2) := by
  induction us generalizing past r with
  | nil => rfl
  | cons u us ih =>
    rw [replay, List.foldl_cons, List.foldl_cons, advance, advance]
    cases r.apply u with
    | ok a =>
      rw [ih, ih [_], List.append_assoc]
      rfl
    | error e =>
      rw [ih, ih []]
      simp

/-- What happens later happens to what was left by what happened before. -/
theorem replay_append (r : Reconciler) (us vs : List Stimulus) :
    r.replay (us ++ vs) =
      (((r.replay us).2.replay vs).1 ++ (r.replay us).1, ((r.replay us).2.replay vs).2) := by
  rw [← foldl_advance, replay, List.foldl_append]
  rfl

/-- The first stimulus comes first. -/
theorem snd_replay_cons (r : Reconciler) (u : Stimulus) (us : List Stimulus) :
    (r.replay (u :: us)).2 = ((r.after u).replay us).2 := by
  have hfirst : (r.replay [u]).2 = r.after u := snd_advance ([], r) u
  rw [← List.singleton_append, replay_append, hfirst]

theorem replay_cons_of_ok {a : Reaction} (h : r.apply u = .ok a) (us : List Stimulus) :
    (r.replay (u :: us)).2 = (a.next.replay us).2 := by
  rw [snd_replay_cons, after_of_ok h]

/-- Whatever happens to a reconciler, it is a run. -/
theorem run_replay (r : Reconciler) (us : List Stimulus) :
    Run r (r.replay us).1 (r.replay us).2 := by
  -- what happens last is the last of the list, so the induction is from its end
  induction us using List.reverseRecOn with
  | nil => exact .start
  | append_singleton us u ih =>
    rw [replay_concat, advance]
    split
    · next hu => exact .reacted ih hu
    · next hu => exact .refused ih hu

/-- A run goes on with whatever happens next. -/
theorem Run.exists_after (h : Run r₀ past r) (u : Stimulus) :
    ∃ past, Run r₀ past (r.after u) := by
  unfold after
  split
  · next hu => exact ⟨_, .reacted h hu⟩
  · next hu => exact ⟨_, .refused h hu⟩

/-- A run goes on where another one ends. -/
theorem Run.append {ms : List Moment} (h : Run r₀ past r) (h' : Run r ms q) :
    Run r₀ (ms ++ past) q := by
  induction h' with
  | start => exact h
  | refused _ hu ih => exact .refused ih hu
  | reacted _ hu ih => exact .reacted ih hu

/-- The runs are just what comes of lists of stimuli. -/
theorem run_iff_replay : Run r₀ past r ↔ ∃ us, r₀.replay us = (past, r) := by
  constructor
  · intro h
    induction h with
    | start => exact ⟨[], rfl⟩
    | @refused _ _ u _ _ hu ih =>
      obtain ⟨us, hus⟩ := ih
      refine ⟨us ++ [u], ?_⟩
      rw [replay_concat, hus, advance, hu]
    | @reacted _ _ u _ _ hu ih =>
      obtain ⟨us, hus⟩ := ih
      refine ⟨us ++ [u], ?_⟩
      rw [replay_concat, hus, advance, hu]
  · rintro ⟨us, hus⟩
    have hrun := r₀.run_replay us
    rw [hus] at hrun
    exact hrun

/-- The past and the present of the usual device's reconciler after some events. -/
def rehearse (policy : Policy) (ms : List Inbound) : List Moment × Reconciler :=
  (begin Rehearsal.Device.standard.id policy).replay (ms.map (.event Rehearsal.now))

theorem run_rehearse (policy : Policy) (ms : List Inbound) :
    Run (begin Rehearsal.Device.standard.id policy) (rehearse policy ms).1 (rehearse policy ms).2 :=
  run_replay ..

/-- One tick without a record of the bulk channel is too long. -/
def impatient : Policy := ⟨⟨1, by decide⟩, true⟩

/-- What is checked of the outcome of an event is true of the reaction. -/
theorem of_handle {P : Reaction → Bool} {now : Instant} {m : Inbound} {a : Reaction}
    (ha : r.handle now m = .ok a) (h : (r.handle now m).toOption.all P) : P a := by
  rw [ha] at h
  exact h

/-! ## What no rule changes -/

/-- Only events of the reconciler's own device are handled. -/
theorem Step.device_eq {now : Instant} {m : Inbound} (h : Step r (.event now m) q sent) :
    m.device = r.device := by
  cases h <;> rfl

/-- The device and the policy that the reconciler was set up with. -/
def settings (r : Reconciler) : DeviceId × Policy :=
  (r.device, ⟨r.journal.tolerance, r.backfillOnGap⟩)

@[simp] theorem settings_opened (r : Reconciler) (info : SessionInfo) (last : Position)
    (now : Instant) : (r.opened info last now).settings = r.settings := by
  have htolerance : (r.journal.ensure info last now.notBeforeEpoch).tolerance =
      r.journal.tolerance := by
    unfold Journal.ensure
    split <;> rfl
  unfold settings
  rw [device_opened]
  exact congrArg (fun tolerance => (r.device, (⟨tolerance, r.backfillOnGap⟩ : Policy))) htolerance

/-- Every rule keeps the device and the policy. -/
theorem Step.settings (h : Step r u q sent) : q.settings = r.settings := by
  cases h with
  | settled _ _ _ hclear => cases hclear <;> rfl
  | repaired _ _ _ hclear => cases hclear <;> rfl
  | unneeded => exact settings_opened ..
  | covered => exact settings_opened ..
  | asked => exact settings_opened ..
  | _ => rfl

theorem Step.keeps_device (h : Step r u q sent) : q.device = r.device :=
  (Prod.ext_iff.mp h.settings).1

theorem Step.keeps_tolerance (h : Step r u q sent) : q.journal.tolerance = r.journal.tolerance :=
  congrArg Policy.tolerance (Prod.ext_iff.mp h.settings).2

theorem Run.settings (h : Run r₀ past r) : r.settings = r₀.settings :=
  h.invariant (I := fun _ r => r.settings = r₀.settings) rfl fun ih hstep => hstep.settings.trans ih

/-- Whether holes are filled is up to the policy. -/
theorem Run.backfillOnGap {device : DeviceId} {policy : Policy}
    (h : Run (begin device policy) past r) : r.backfillOnGap = policy.backfillOnGap :=
  congrArg Policy.backfillOnGap (Prod.ext_iff.mp h.settings).2

end Reconciler

/-! ## Requests of the past -/

section Requests

open Rehearsal

/-- The request that was made at the moment, if one was. -/
def Moment.request? (m : Moment) : Option Span := (requestsOf m.after.sent).getLast?

/-- The request that was made last. -/
def lastRequest? (past : List Moment) : Option Span := past.findSome? Moment.request?

/-- The moments after the last request, the latest first. -/
def sinceRequest (past : List Moment) : List Moment := past.takeWhile (·.request?.isNone)

variable {r : Reconciler} {u : Stimulus} {a : Reaction} {span : Span}

theorem request?_of_quiet (h : requestsOf a.sent = []) : Moment.request? ⟨r, u, a⟩ = none := by
  rw [Moment.request?, h]
  rfl

theorem request?_of_request (h : requestsOf a.sent = [span]) :
    Moment.request? ⟨r, u, a⟩ = some span := by
  rw [Moment.request?, h]
  rfl

/-- Without a new request the last one stays the last one. -/
theorem lastRequest?_of_quiet (h : requestsOf a.sent = []) (past : List Moment) :
    lastRequest? (⟨r, u, a⟩ :: past) = lastRequest? past := by
  rw [lastRequest?, List.findSome?_cons, request?_of_quiet h]
  rfl

theorem lastRequest?_of_request (h : requestsOf a.sent = [span]) (past : List Moment) :
    lastRequest? (⟨r, u, a⟩ :: past) = some span := by
  rw [lastRequest?, List.findSome?_cons, request?_of_request h]

theorem sinceRequest_of_quiet (h : requestsOf a.sent = []) (past : List Moment) :
    sinceRequest (⟨r, u, a⟩ :: past) = ⟨r, u, a⟩ :: sinceRequest past := by
  apply List.takeWhile_cons_of_pos
  rw [request?_of_quiet h]
  rfl

/-- Since a request that was only just made nothing has happened. -/
theorem sinceRequest_of_request (h : requestsOf a.sent = [span]) (past : List Moment) :
    sinceRequest (⟨r, u, a⟩ :: past) = [] := by
  apply List.takeWhile_cons_of_neg
  rw [request?_of_request h]
  exact Bool.false_ne_true

@[simp] theorem requestsOf_announce (r : Reconciler) (state : UploadState) :
    requestsOf (r.announce state) = [] := by
  unfold Reconciler.announce
  split <;> rfl

@[simp] theorem requestsOf_refreshSent (r : Reconciler) (status : Status) :
    requestsOf (r.refreshSent status) = [] := by
  unfold Reconciler.refreshSent
  split
  · rfl
  · exact requestsOf_announce ..

end Requests

/-! ## Positions of the past -/

/-- The positions that come up in what happens. -/
def Stimulus.positions : Stimulus → List Position
  | .event _ ⟨_, .cursor x _⟩ => [x.position]
  | .event _ ⟨_, .bulk x⟩ => [x.position]
  | .event _ ⟨_, .start first last _⟩ => [first, last]
  | _ => []

/-- The positions that came up in the past. -/
def received (past : List Moment) : List Position := past.flatMap fun m => m.stimulus.positions

theorem mem_received_cons {m : Moment} {past : List Moment} {p : Position} :
    p ∈ received (m :: past) ↔ p ∈ m.stimulus.positions ∨ p ∈ received past := by
  rw [received, List.flatMap_cons, List.mem_append]
  rfl

namespace Reconciler

/-- The current session holds the position. -/
def holds (r : Reconciler) (p : Position) : Bool :=
  r.journal.current.any fun s => decide (p ∈ s.store)

variable {r₀ r q : Reconciler} {s : Session} {u : Stimulus} {sent : List Outbound}
  {past : List Moment} {p : Position}

theorem holds_of_current (hs : r.journal.current = some s) : r.holds p ↔ p ∈ s.store := by
  rw [holds, hs, Option.any_some, decide_eq_true_iff]

/-- A session that was not the current one opens without records and without an expectation. -/
theorem opened_cases (r : Reconciler) (info : SessionInfo) (last : Position) (now : Instant) :
    r.journal.isIn info.id ∧ r.opened info last now = { r with backfill := none } ∨
      r.journal.isIn info.id = false ∧ (r.opened info last now).journal.current =
        some ((Session.begin info r.journal.tolerance).anchor last now.notBeforeEpoch) := by
  unfold opened Journal.ensure
  cases hin : r.journal.isIn info.id with
  | true =>
    left
    exact ⟨rfl, rfl⟩
  | false =>
    right
    exact ⟨rfl, rfl⟩

/-- What something did to the store of the current session, which is `t` afterwards. -/
inductive Stores (r : Reconciler) (u : Stimulus) (t : Session) : Prop
  /-- The session holds what it held. -/
  | keeps {s : Session} (hs : r.journal.current = some s) (h : t.store = s.store)
  /-- A record was stored, which has a place in the stream. -/
  | adds {s : Session} {x : Record} (hs : r.journal.current = some s)
      (hx : x.position ∈ u.positions) (hset : x.position.IsSet) (h : t.store = s.store.insert x)
  /-- The session was opened. -/
  | opens (h : t.store = .empty)

theorem stores_of_cursor {t : Session} {now : Instant} {d : DeviceId} {x : Record}
    {info : SessionInfo} (hs : r.journal.current = some s)
    (h : t.store = (s.receiveCursor x).store) :
    Stores r (.event now ⟨d, .cursor x info⟩) t := by
  rw [Session.store_receiveCursor] at h
  split at h
  · next haccepts => exact .adds hs (List.mem_singleton_self _) haccepts.1 h
  · exact .keeps hs h

theorem stores_of_bulk {t : Session} {now : Instant} {d : DeviceId} {x : Record}
    (hs : r.journal.current = some s) (h : t.store = (s.receiveBulk x).store) :
    Stores r (.event now ⟨d, .bulk x⟩) t := by
  rw [Session.store_receiveBulk] at h
  split at h
  · next hset => exact .adds hs (List.mem_singleton_self _) hset h
  · exact .keeps hs h

theorem stores_of_opened {t : Session} {info : SessionInfo} {last : Position} {now : Instant}
    (hs : (r.opened info last now).journal.current = some s) (h : t.store = s.store) :
    Stores r u t := by
  rcases r.opened_cases info last now with ⟨-, heq⟩ | ⟨-, hcurrent⟩
  · rw [heq] at hs
    exact .keeps hs h
  · obtain rfl := Option.some_inj.mp (hs.symm.trans hcurrent)
    rw [Session.store_anchor] at h
    exact .opens h

/-- **A rule keeps what the current session holds, adds a record to it or opens a session.** -/
theorem Step.stores {t : Session} (h : Step r u q sent) (ht : q.journal.current = some t) :
    Stores r u t := by
  have hmap {f : Session → Session} (hf : ∀ s, (f s).store = s.store)
      (ht : (r.journal.update f).current = some t) : Stores r u t := by
    obtain ⟨s, hs, rfl⟩ := Option.map_eq_some_iff.mp ht
    exact .keeps hs (hf s)
  cases h with
  | ignored | noticed | left => exact .keeps ht rfl
  | disconnected => exact hmap Session.store_forgetCursor ht
  | ticked hs | stalled hs =>
    cases ht
    exact stores_of_cursor hs rfl
  | settled hs _ _ hclear | repaired hs _ _ hclear =>
    cases hclear <;> cases ht <;> exact stores_of_cursor hs rfl
  | delivered hs | fetched hs | filling hs | filled hs | added hs | late hs =>
    cases ht
    exact stores_of_bulk hs rfl
  | unneeded hs | covered hs | asked hs =>
    cases ht
    exact stores_of_opened hs rfl
  | cancelled hs =>
    cases ht
    exact .keeps hs rfl
  | dropped => exact hmap Session.store_finish ht
  | reset => cases ht

/-- A session comes to hold no position but the one of a record that came. -/
theorem Step.holds {t : Session} (h : Step r u q sent) (ht : q.journal.current = some t)
    (hp : p ∈ t.store) : r.holds p ∨ p ∈ u.positions := by
  cases h.stores ht with
  | keeps hs hstore =>
    rw [hstore] at hp
    exact .inl ((holds_of_current hs).mpr hp)
  | adds hs hx _ hstore =>
    rw [hstore] at hp
    rcases Store.mem_insert.mp hp with rfl | hp
    · exact .inr hx
    · exact .inl ((holds_of_current hs).mpr hp)
  | opens hstore =>
    rw [hstore] at hp
    exact absurd hp (Store.not_mem_empty p)

/-- The unset mark is never held. -/
theorem Run.isSet_of_holds (h : Run r₀ past r) (hstart : r₀.journal.current = none)
    (hp : r.holds p) : p.IsSet := by
  revert p
  refine h.invariant (I := fun _ r => ∀ {p}, r.holds p → p.IsSet) ?_ ?_
  · intro p hp
    rw [Reconciler.holds, hstart] at hp
    cases hp
  · intro past r u a ih hstep p hp
    obtain ⟨t, ht, hpt⟩ := (Option.any_eq_true _ _).mp hp
    have hpt : p ∈ t.store := of_decide_eq_true hpt
    cases hstep.stores ht with
    | keeps hs hstore =>
      rw [hstore] at hpt
      exact ih ((holds_of_current hs).mpr hpt)
    | adds hs _ hset hstore =>
      rw [hstore] at hpt
      rcases Store.mem_insert.mp hpt with rfl | hpt
      · exact hset
      · exact ih ((holds_of_current hs).mpr hpt)
    | opens hstore =>
      rw [hstore] at hpt
      exact absurd hpt (Store.not_mem_empty p)

end Reconciler

end Logbook
