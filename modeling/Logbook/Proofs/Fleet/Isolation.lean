import Logbook.Proofs.Fleet.Orders

/-!
# Each device has a reconciler of its own

The devices of a fleet share one outlet for their reports, and any attempt to hand over a report
may fail or bring down the worker that makes it. Still each device is answered for as if it were
alone: its worker is the reconciler that took what was dispatched for the device, whatever happened
to others and whichever reports were lost. Only an attempt that crashes ends that, and then for this
device alone.

Orders are told as a log, the latest first.

- `Fleet.after`: the fleet after the orders of a log.
- `Fleet.Since`: an order of some kind was given since the last shutdown.
- `Fleet.lone`: the reconciler that took what was meant for a device since the last shutdown.
- `Fleet.worker?_obey_of_ne`: an order leaves the workers of other devices alone.
- `Fleet.Tracked`: what the worker of a device is after a log; `Fleet.tracked_after` is the
  invariant, by induction on the log.
- `Fleet.answers_as_lone`: every device is answered for as if it were alone.
-/

namespace Logbook.Fleet

variable {f : Fleet} {d : DeviceId} {o : Order} {log : List Order} {P : Fleet → Order → Prop}

/-! ## Logs of orders -/

/-- The fleet after the orders of a log. -/
def after (f : Fleet) : List Order → Fleet
  | [] => f
  | o :: log => ((f.after log).obey o).2

theorem settings_after (f : Fleet) (log : List Order) : (f.after log).settings = f.settings := by
  induction log with
  | nil => rfl
  | cons o log ih => exact ((f.after log).obeys o).settings.trans ih

/-- Since the last shutdown there was an order of a kind, which is told together with the fleet
that got it. -/
def Since (f : Fleet) (P : Fleet → Order → Prop) : List Order → Prop
  | [] => False
  | o :: log => o ≠ .shutdown ∧ (P (f.after log) o ∨ f.Since P log)

instance decidableSince [∀ g o, Decidable (P g o)] :
    (log : List Order) → Decidable (f.Since P log)
  | [] => inferInstanceAs (Decidable False)
  | o :: log =>
    have := decidableSince log
    inferInstanceAs (Decidable (o ≠ .shutdown ∧ (P (f.after log) o ∨ f.Since P log)))

theorem since_cons (ho : o ≠ .shutdown) :
    f.Since P (o :: log) ↔ P (f.after log) o ∨ f.Since P log := and_iff_right ho

/-- What was not so far, and is not now, was not since the last shutdown. -/
theorem not_since_cons (h : ¬ P (f.after log) o) (hpast : ¬ f.Since P log) :
    ¬ f.Since P (o :: log) := fun hsince => hsince.2.elim h hpast

theorem not_since_shutdown : ¬ f.Since P (.shutdown :: log) := fun h => h.1 rfl

/-- An event of the device is dispatched, and the order is carried out. -/
def Takes (d : DeviceId) (g : Fleet) (o : Order) : Prop :=
  o.isDispatch ∧ o.device? = some d ∧ (g.obey o).1 = .ok .done

instance (d : DeviceId) (g : Fleet) (o : Order) : Decidable (Takes d g o) :=
  inferInstanceAs (Decidable (o.isDispatch ∧ o.device? = some d ∧ (g.obey o).1 = .ok .done))

/-- An order for the device is given, and one of the attempts that are made for it crashes. -/
def Crashes (d : DeviceId) (g : Fleet) (o : Order) : Prop :=
  o.device? = some d ∧
    CrashAmong g.outlet.fate g.outlet.attempts (g.obey o).2.outlet.attempts

instance (d : DeviceId) (g : Fleet) (o : Order) : Decidable (Crashes d g o) :=
  inferInstanceAs (Decidable (_ ∧ _))

/-- Orders that change nothing make no attempt. -/
theorem not_crashes_of_eq {g : Fleet} (h : (g.obey o).2 = g) : ¬ Crashes d g o := by
  rw [Crashes, h]
  exact fun hcrash => not_crashAmong_self _ _ hcrash.2

theorem not_takes_of_error {g : Fleet} {e : Error} (h : (g.obey o).1 = .error e) :
    ¬ Takes d g o := by
  rintro ⟨-, -, hdone⟩
  rw [h] at hdone
  cases hdone

theorem since_takes (hdispatch : o.isDispatch) (hd : o.device? = some d)
    (hdone : ((f.after log).obey o).1 = .ok .done) : f.Since (Takes d) (o :: log) :=
  ⟨Order.ne_shutdown hd, .inl ⟨hdispatch, hd, hdone⟩⟩

/-- What happened to the reconciler of a device since the last shutdown, in order. -/
def stimuli (d : DeviceId) (log : List Order) : List Stimulus :=
  (log.takeWhile (· ≠ .shutdown)).reverse.filterMap (·.stimulus? d)

/-- A reconciler to which just this happened. -/
def lone (f : Fleet) (d : DeviceId) (log : List Order) : Reconciler :=
  ((Reconciler.begin d f.policy).replay (stimuli d log)).2

theorem stimuli_cons (ho : o ≠ .shutdown) :
    stimuli d (o :: log) = stimuli d log ++ (o.stimulus? d).toList := by
  unfold stimuli
  rw [List.takeWhile_cons_of_pos (by simpa using ho), List.reverse_cons, List.filterMap_append]
  cases hu : o.stimulus? d <;> simp [hu]

theorem lone_of_none (ho : o ≠ .shutdown) (hu : o.stimulus? d = none) :
    f.lone d (o :: log) = f.lone d log := by
  rw [lone, lone, stimuli_cons ho, hu, Option.toList_none, List.append_nil]

theorem lone_of_some {u : Stimulus} (ho : o ≠ .shutdown) (hu : o.stimulus? d = some u) :
    f.lone d (o :: log) = (f.lone d log).after u := by
  rw [lone, stimuli_cons ho, hu, Option.toList_some, Reconciler.replay_concat,
    Reconciler.snd_advance]
  rfl

theorem lone_shutdown (f : Fleet) (d : DeviceId) (log : List Order) :
    f.lone d (.shutdown :: log) = .begin d f.policy := by
  have hnothing : stimuli d (.shutdown :: log) = [] := by simp [stimuli]
  rw [lone, hnothing]
  rfl

/-! ## Orders for other devices -/

/-- **An order leaves the workers of other devices alone**, unless it ends them all. -/
theorem worker?_obey_of_ne (ho : o ≠ .shutdown) (hd : o.device? ≠ some d) :
    (f.obey o).2.worker? d = f.worker? d := by
  obtain ⟨answer, g, hobey, hrule⟩ : ∃ answer g, f.obey o = (answer, g) ∧ Obeys f o answer g :=
    ⟨_, _, rfl, f.obeys o⟩
  rw [hobey]
  cases hrule with
  | answered | tooDeep | stopped | unknown | closed => rfl
  | dispatched | tracked | dropped =>
    refine worker?_serve_of_ne ?_ _ _
    rintro rfl
    exact hd rfl
  | ended => exact absurd rfl ho

theorem stimulus?_of_ne (hd : o.device? ≠ some d) : o.stimulus? d = none := by
  cases o with
  | dispatch now m => exact if_neg fun h => hd (congrArg some h)
  | reset e => exact if_neg fun h => hd (congrArg some h)
  | ask | shutdown | closeOutlet => rfl

theorem not_takes_of_ne {g : Fleet} (hd : o.device? ≠ some d) : ¬ Takes d g o :=
  fun h => hd h.2.1

/-! ## The worker of a device -/

/-- What the worker of a device is after a log. -/
inductive Tracked (f : Fleet) (d : DeviceId) (log : List Order) : Option Worker → Prop
  /-- No event of the device was dispatched. The journal may have been dropped, which does nothing
  to a reconciler that never heard of it. Without queues all events are left out, so that nothing
  is known of the lone reconciler. -/
  | absent (hnew : ¬ f.Since (Takes d) log) (hlive : ¬ f.Since (Crashes d) log)
      (hlone : f.depth ≤ Queue.maxCapacity → f.lone d log = .begin d f.policy) :
      Tracked f d log none
  /-- No attempt for the device crashed. -/
  | running (hknown : f.Since (Takes d) log) (hlive : ¬ f.Since (Crashes d) log) :
      Tracked f d log (some (.running (f.lone d log)))
  /-- An attempt for the device crashed. -/
  | crashed (hknown : f.Since (Takes d) log) (hcrash : f.Since (Crashes d) log) :
      Tracked f d log (some .crashed)

/-- Orders by which nothing happens to the worker of a device. -/
theorem Tracked.unmoved {w : Option Worker} (h : Tracked f d log w) (ho : o ≠ .shutdown)
    (htakes : ¬ Takes d (f.after log) o) (hcrashes : ¬ Crashes d (f.after log) o)
    (hu : o.stimulus? d = none) : Tracked f d (o :: log) w := by
  have hsame : f.lone d (o :: log) = f.lone d log := lone_of_none ho hu
  cases h with
  | absent hnew hlive hlone =>
    refine .absent (not_since_cons htakes hnew) (not_since_cons hcrashes hlive) fun hdepth => ?_
    rw [hsame, hlone hdepth]
  | running hknown hlive =>
    rw [← hsame]
    exact .running ((since_cons ho).mpr (.inr hknown)) (not_since_cons hcrashes hlive)
  | crashed hknown hcrash =>
    exact .crashed ((since_cons ho).mpr (.inr hknown)) ((since_cons ho).mpr (.inr hcrash))

/-- Orders by which the worker of a device takes something. -/
theorem tracked_of_served {u : Stimulus} (hd : o.device? = some d) (hu : o.stimulus? d = some u)
    (hserved : ((f.after log).obey o).2 = (f.after log).serve d (f.lone d log) u)
    (hknown : f.Since (Takes d) (o :: log)) (hlive : ¬ f.Since (Crashes d) log) :
    Tracked f d (o :: log) (((f.after log).obey o).2.worker? d) := by
  have ho : o ≠ .shutdown := Order.ne_shutdown hd
  have hcrashes : Crashes d (f.after log) o ↔ CrashAmong (f.after log).outlet.fate
      (f.after log).outlet.attempts
      ((f.after log).serve d (f.lone d log) u).outlet.attempts := by
    rw [Crashes, hserved]
    exact and_iff_right hd
  rw [hserved]
  rcases (f.after log).worker?_serve d (f.lone d log) u with ⟨hcrash, hw⟩ | ⟨hsafe, hw⟩
  · rw [hw]
    exact .crashed hknown ((since_cons ho).mpr (.inl (hcrashes.mpr hcrash)))
  · rw [hw, ← lone_of_some ho hu]
    refine .running hknown ?_
    rw [since_cons ho, hcrashes]
    exact not_or_intro hsafe hlive

/-- An order for the device goes to what its worker is. -/
theorem Tracked.obeyed (h : Tracked f d log ((f.after log).worker? d)) (hd : o.device? = some d) :
    Tracked f d (o :: log) ((f.after (o :: log)).worker? d) := by
  have ho : o ≠ .shutdown := Order.ne_shutdown hd
  have hpolicy : (f.after log).policy = f.policy := congrArg (·.1) (f.settings_after log)
  have hdepths : (f.after log).depth = f.depth := congrArg (·.2.1) (f.settings_after log)
  show Tracked f d (o :: log) (((f.after log).obey o).2.worker? d)
  obtain ⟨answer, g, hobey, hrule⟩ :
      ∃ answer g, (f.after log).obey o = (answer, g) ∧ Obeys (f.after log) o answer g :=
    ⟨_, _, rfl, (f.after log).obeys o⟩
  obtain ⟨hanswer, hfleet⟩ := Prod.ext_iff.mp hobey
  cases hrule with
  | answered hw =>
    rw [hfleet]
    exact h.unmoved ho (by rintro ⟨⟨⟩, -⟩) (not_crashes_of_eq hfleet) rfl
  | @dispatched _ m _ hw =>
    obtain rfl : m.device = d := Option.some_inj.mp hd
    rw [hw] at h
    cases h with
    | running _ hlive =>
      exact tracked_of_served hd (if_pos rfl) hfleet (since_takes rfl rfl hanswer) hlive
  | @tracked _ m hw hdepth =>
    obtain rfl : m.device = d := Option.some_inj.mp hd
    rw [hw] at h
    cases h with
    | absent _ hlive hlone =>
      -- the reconciler that the worker starts with is the one of the past
      have hfresh : f.lone m.device log = .begin m.device (f.after log).policy := by
        rw [hlone (hdepths ▸ hdepth), hpolicy]
      rw [← hfresh] at hfleet
      exact tracked_of_served hd (if_pos rfl) hfleet (since_takes rfl rfl hanswer) hlive
  | @tooDeep _ m hw hdepth =>
    obtain rfl : m.device = d := Option.some_inj.mp hd
    rw [hfleet, hw]
    rw [hw] at h
    cases h with
    | absent hnew hlive =>
      refine .absent (not_since_cons (not_takes_of_error hanswer) hnew)
        (not_since_cons (not_crashes_of_eq hfleet) hlive) fun hsmall => ?_
      exact absurd (hdepths ▸ hdepth) (Nat.not_lt.mpr hsmall)
  | dropped hw =>
    obtain rfl := Option.some_inj.mp hd
    rw [hw] at h
    cases h with
    | running hknown hlive =>
      exact tracked_of_served hd (if_pos rfl) hfleet ((since_cons ho).mpr (.inr hknown)) hlive
  | stopped hd' hw =>
    obtain rfl := Option.some_inj.mp (hd.symm.trans hd')
    rw [hfleet, hw]
    rw [hw] at h
    cases h with
    | crashed hknown hcrash =>
      exact .crashed ((since_cons ho).mpr (.inr hknown)) ((since_cons ho).mpr (.inr hcrash))
  | unknown hasked hw =>
    have htakes : ¬ Takes d (f.after log) o := not_takes_of_error hanswer
    rw [hfleet]
    rcases hasked with rfl | ⟨question, rfl⟩
    · obtain rfl := Option.some_inj.mp hd
      rw [hw] at h ⊢
      cases h with
      | absent hnew hlive hlone =>
        refine .absent (not_since_cons htakes hnew)
          (not_since_cons (not_crashes_of_eq hfleet) hlive) fun hdepth => ?_
        rw [lone_of_some ho (if_pos rfl), hlone hdepth]
        rfl
    · exact h.unmoved ho htakes (not_crashes_of_eq hfleet) rfl
  | ended => exact absurd rfl ho
  | closed => cases hd

/-- **What the worker of a device is after a log.** -/
theorem tracked_after (hf : f.workers = []) (d : DeviceId) (log : List Order) :
    Tracked f d log ((f.after log).worker? d) := by
  -- the induction is from the first order on, each order being a step
  induction log with
  | nil =>
    have hw : f.worker? d = none := by
      unfold worker?
      rw [hf]
      rfl
    show Tracked f d [] (f.worker? d)
    rw [hw]
    exact .absent id id fun _ => rfl
  | cons o log ih =>
    obtain rfl | ho := eq_or_ne o .shutdown
    · exact .absent not_since_shutdown not_since_shutdown fun _ => f.lone_shutdown d log
    by_cases hd : o.device? = some d
    · exact ih.obeyed hd
    · have hsame : (f.after (o :: log)).worker? d = (f.after log).worker? d :=
        worker?_obey_of_ne ho hd
      rw [hsame]
      exact ih.unmoved ho (not_takes_of_ne hd) (fun h => hd h.1) (stimulus?_of_ne hd)

/-! ## Answers -/

/-- A device has a worker once an event of it was dispatched. -/
theorem Tracked.ne_none_iff {w : Option Worker} (h : Tracked f d log w) :
    w ≠ none ↔ f.Since (Takes d) log := by
  cases h with
  | absent hnew => exact iff_of_false (fun h => h rfl) hnew
  | running hknown | crashed hknown => exact iff_of_true (Option.some_ne_none _) hknown

theorem Tracked.eq_crashed_iff {w : Option Worker} (h : Tracked f d log w) :
    w = some .crashed ↔ f.Since (Crashes d) log := by
  cases h with
  | absent _ hlive | running _ hlive => exact iff_of_false nofun hlive
  | crashed _ hcrash => exact iff_of_true rfl hcrash

theorem Tracked.eq_running {w : Option Worker} (h : Tracked f d log w)
    (hknown : f.Since (Takes d) log) (hlive : ¬ f.Since (Crashes d) log) :
    w = some (.running (f.lone d log)) := by
  cases h with
  | absent hnew => exact absurd hknown hnew
  | running => rfl
  | crashed _ hcrash => exact absurd hcrash hlive

theorem obey_ask_of_running {r : Reconciler} (hw : f.worker? d = some (.running r))
    (question : Question) : f.obey (.ask d question) = (.ok (question.answer r), f) := by
  rw [obey, query, hw]

/-- A device that cannot be asked has no order but an event carried out. -/
theorem obey_of_refused {e : Error}
    (hquery : ∀ {α : Type} (question : Reconciler → α), f.query d question = .error e)
    (hd : o.device? = some d) (hasks : o.isDispatch = false) : f.obey o = (.error e, f) := by
  cases o with
  | dispatch now m => cases hasks
  | ask d question =>
    obtain rfl := Option.some_inj.mp hd
    rw [obey, hquery]
  | reset d =>
    obtain rfl := Option.some_inj.mp hd
    rw [obey, resetDevice, hquery]
    rfl
  | shutdown | closeOutlet => cases hd

theorem obey_of_unknown (hw : f.worker? d = none) (hd : o.device? = some d)
    (hasks : o.isDispatch = false) : f.obey o = (.error (.unknown d), f) :=
  obey_of_refused (fun question => by rw [query, hw]) hd hasks

theorem obey_of_crashed (hw : f.worker? d = some .crashed) (hd : o.device? = some d) :
    f.obey o = (.error (.stopped d), f) := by
  cases o with
  | dispatch now m =>
    obtain rfl := Option.some_inj.mp hd
    rw [obey, dispatch, hw]
    rfl
  | ask | reset | shutdown | closeOutlet =>
    exact obey_of_refused (fun question => by rw [query, hw]) hd rfl

/-- Only a worker that has crashed takes no event of its device, as long as there are queues. -/
theorem done_or_tooDeep (now : Instant) {m : Inbound} (hw : f.worker? m.device ≠ some .crashed) :
    (f.obey (.dispatch now m)).1 = .ok .done ∨
      Queue.maxCapacity < f.depth ∧
        f.obey (.dispatch now m) = (.error (.tooDeep f.depth), f) := by
  obtain ⟨answer, g, hobey, hrule⟩ :
      ∃ answer g, f.obey (.dispatch now m) = (answer, g) ∧ Obeys f (.dispatch now m) answer g :=
    ⟨_, _, rfl, f.obeys _⟩
  rw [hobey]
  cases hrule with
  | dispatched | tracked => exact .inl rfl
  | tooDeep _ hdepth => exact .inr ⟨hdepth, rfl⟩
  | stopped hd hcrashed =>
    obtain rfl := Option.some_inj.mp hd
    exact absurd hcrashed hw
  | unknown hasked => rcases hasked with h | ⟨_, h⟩ <;> cases h

/-- A running worker drops its journal and says so, unless that brings it down. -/
theorem done_or_crashes {r : Reconciler} (hw : f.worker? d = some (.running r)) :
    (f.obey (.reset d)).1 = .ok .done ∨ Crashes d f (.reset d) := by
  have hobey : f.obey (.reset d) =
      ((f.settle d r.reset).result.map fun _ => .done, (f.settle d r.reset).fleet) := by
    rw [obey, resetDevice, query, hw]
  rw [Crashes, hobey, result_settle]
  split
  · next hcrash => exact .inr ⟨rfl, hcrash⟩
  · exact .inl rfl

/-- **Every device of a fleet is answered for as if it were alone**, whatever happens to the others
and whichever reports are lost, until one of its own attempts crashes. It is listed once an event
of it is dispatched. -/
theorem answers_as_lone {depth : ℕ} {ticks : Counter} {backfillOnGap : Bool} {outlet : Outlet}
    (h : Fleet.begin depth ticks backfillOnGap outlet = .ok f) (log : List Order) (d : DeviceId) :
    -- the lone reconciler has the settings of the fleet
    Reconciler.ofTicks d ticks backfillOnGap = .ok (.begin d f.policy) ∧
    (d ∈ (f.after log).devices ↔ f.Since (Takes d) log) ∧
    (f.Since (Takes d) log → ¬ f.Since (Crashes d) log →
      (∀ question, (f.after log).obey (.ask d question) =
        (.ok (question.answer (f.lone d log)), f.after log)) ∧
      (((f.after log).obey (.reset d)).1 = .ok .done ∨ Crashes d (f.after log) (.reset d))) ∧
    (f.Since (Crashes d) log → ∀ o, o.device? = some d →
      (f.after log).obey o = (.error (.stopped d), f.after log)) ∧
    (¬ f.Since (Takes d) log → ∀ o, o.device? = some d → o.isDispatch = false →
      (f.after log).obey o = (.error (.unknown d), f.after log)) ∧
    (¬ f.Since (Crashes d) log → ∀ now m, m.device = d →
      ((f.after log).obey (.dispatch now m)).1 = .ok .done ∨
        Queue.maxCapacity < depth ∧
          (f.after log).obey (.dispatch now m) = (.error (.tooDeep depth), f.after log)) := by
  obtain ⟨policy, hpolicy, rfl⟩ := begin_ok h
  have hw := tracked_after (f := ⟨policy, depth, outlet, []⟩) rfl d log
  refine ⟨?_, ?_, ?_, ?_, ?_, ?_⟩
  · rw [Reconciler.ofTicks, hpolicy]
  · exact mem_devices_iff.trans hw.ne_none_iff
  · intro hknown hlive
    have hrunning := hw.eq_running hknown hlive
    exact ⟨obey_ask_of_running hrunning, done_or_crashes hrunning⟩
  · intro hcrash o hd
    exact obey_of_crashed (hw.eq_crashed_iff.mpr hcrash) hd
  · intro hnew o hd hasks
    exact obey_of_unknown (not_not.mp (mt hw.ne_none_iff.mp hnew)) hd hasks
  · rintro hlive now m rfl
    have hdepth : (after ⟨policy, depth, outlet, []⟩ log).depth = depth :=
      congrArg (·.2.1) (settings_after ⟨policy, depth, outlet, []⟩ log)
    have hanswer := done_or_tooDeep now (mt hw.eq_crashed_iff.mp hlive)
    rwa [hdepth] at hanswer

section Crash

open Rehearsal

/-- A fleet whose third attempt to hand over a report brings down the worker that makes it. -/
def fragile : Fleet :=
  ⟨.standard, standardDepth, ⟨fun n => if n = 3 then .crash else .deliver, 0, true⟩, []⟩

/-- A device whose reports get through. -/
def steady : Device := .ofSerial 268435456

/-- A device with a report that does not. -/
def unlucky : Device := .ofSerial 268435457

/-- A device that nothing is heard of. -/
def silent : Device := .ofSerial 268435458

/-- Two devices start. The first one makes two attempts, so that the third one is made for the
second device; then the first one delivers its record. -/
def twoStarts : List Order :=
  [.dispatch now (steady.bulk .zero), .dispatch now (unlucky.start .zero .zero),
    .dispatch now (steady.start .zero .zero)]

/-- The crash ends the answers for one device; the other one has its record, and a device that was
never heard of is not known. -/
theorem answers_as_lone_beside_a_crash :
    Fleet.begin standardDepth Tolerance.standard.ticks true fragile.outlet = .ok fragile ∧
    (steady.id ∈ (fragile.after twoStarts).devices ∧
      (fragile.after twoStarts).obey (.ask steady.id .history) =
        (.ok (.history (fragile.lone steady.id twoStarts).journal.history),
          fragile.after twoStarts) ∧
      (fragile.lone steady.id twoStarts).journal.history.map (·.record) =
        [Device.record .zero]) ∧
    (unlucky.id ∈ (fragile.after twoStarts).devices ∧
      (fragile.after twoStarts).obey (.dispatch now (unlucky.bulk .zero)) =
        (.error (.stopped unlucky.id), fragile.after twoStarts)) ∧
    (silent.id ∉ (fragile.after twoStarts).devices ∧
      (fragile.after twoStarts).obey (.reset silent.id) =
        (.error (.unknown silent.id), fragile.after twoStarts)) := by
  have hbegin : Fleet.begin standardDepth Tolerance.standard.ticks true fragile.outlet =
    .ok fragile := rfl
  obtain ⟨-, hsteady, hrunning, -⟩ := answers_as_lone hbegin twoStarts steady.id
  obtain ⟨-, hunlucky, -, hstopped, -⟩ := answers_as_lone hbegin twoStarts unlucky.id
  obtain ⟨-, hsilent, -, -, hunknown, -⟩ := answers_as_lone hbegin twoStarts silent.id
  refine ⟨hbegin, ⟨hsteady.mpr (by decide), ?_, by decide⟩, ⟨hunlucky.mpr (by decide), ?_⟩,
    ⟨mt hsilent.mp (by decide), ?_⟩⟩
  · exact (hrunning (by decide) (by decide)).1 .history
  · exact hstopped (by decide) _ rfl
  · exact hunknown (by decide) _ rfl rfl

end Crash

end Logbook.Fleet
