import Logbook.Fleet
import Logbook.Proofs.Reconciler.Run

/-!
# Orders to a fleet

A fleet is told to dispatch events, asked about its devices, and told to drop a journal, to shut
down, or that nobody receives its reports any more. Each order concerns one device at most, and its
worker is the only one that the order touches. `Fleet.Obeys` lists what can come of an order, one
rule for each outcome; the operations of the fleet are opened once, here.

- `Fleet.Order`, `Fleet.Question`, `Fleet.Answer`, `Fleet.obey`: the orders, and what they do.
- `Outlet.crashed_iff`: handing over reports brings a worker down when one of its attempts does.
- `Fleet.worker?_setWorker`: a worker that is put in its place displaces only its predecessor.
- `Fleet.serve`: the fleet after the worker of a device took something.
- `Fleet.Obeys`, `Fleet.obeys`: the rules.
-/

namespace Logbook

/-! ## Handing over reports -/

/-- One of the attempts after the first `made` ones, up to number `upTo`, brought its worker down. -/
def CrashAmong (fate : ℕ → Fate) (made upTo : ℕ) : Prop :=
  ∃ n ≤ upTo, made < n ∧ fate n = .crash

instance (fate : ℕ → Fate) (made upTo : ℕ) : Decidable (CrashAmong fate made upTo) :=
  inferInstanceAs (Decidable (∃ n ≤ upTo, made < n ∧ fate n = .crash))

/-- No attempt is made, and none crashes. -/
theorem not_crashAmong_self (fate : ℕ → Fate) (made : ℕ) : ¬ CrashAmong fate made made := by
  rintro ⟨n, hle, hlt, -⟩
  omega

namespace Outlet

@[simp] theorem fate_deliver (o : Outlet) (sent : List Outbound) :
    (o.deliver sent).outlet.fate = o.fate := by
  induction sent generalizing o with
  | nil => rfl
  | cons m rest ih =>
    unfold deliver
    split
    · rfl
    · exact ih _

/-- The first attempt to come crashes if that is its fate, and gets in the way of nothing only if
it is delivered. -/
theorem fate_of_obstacle? (o : Outlet) :
    (o.obstacle? = some .crashed ↔ o.fate (o.attempts + 1) = .crash) ∧
      (o.obstacle? = none → o.fate (o.attempts + 1) = .deliver) := by
  unfold obstacle?
  cases hfate : o.fate (o.attempts + 1) with
  | crash => simp
  | refuse reason => simp
  | deliver => by_cases hopen : o.isOpen <;> simp [hopen]

/-- **A worker is brought down over its reports just when one of its attempts crashes.** -/
theorem crashed_iff (o : Outlet) (sent : List Outbound) :
    (o.deliver sent).interruption = some .crashed ↔
      CrashAmong o.fate o.attempts (o.deliver sent).outlet.attempts := by
  induction sent generalizing o with
  | nil => exact iff_of_false (by simp [deliver]) (not_crashAmong_self _ _)
  | cons m rest ih =>
    obtain ⟨hcrash, hdelivered⟩ := o.fate_of_obstacle?
    unfold deliver
    split
    -- the first attempt was the last one
    · next hobstacle =>
      rw [← hobstacle, hcrash]
      constructor
      · intro hfate
        exact ⟨_, Nat.le_refl _, Nat.lt_succ_self _, hfate⟩
      · rintro ⟨n, hle, hlt, hfate⟩
        obtain rfl : n = o.attempts + 1 := Nat.le_antisymm hle hlt
        exact hfate
    -- the first attempt went through, so that it is among the rest
    · next hobstacle =>
      refine (ih { o with attempts := o.attempts + 1 }).trans ?_
      constructor
      · rintro ⟨n, hle, hlt, hfate⟩
        exact ⟨n, hle, Nat.lt_of_succ_lt hlt, hfate⟩
      · rintro ⟨n, hle, hlt, hfate⟩
        rcases Nat.eq_or_lt_of_le hlt with heq | hlt
        · rw [← heq, Nat.succ_eq_add_one, hdelivered hobstacle] at hfate
          cases hfate
        · exact ⟨n, hle, hlt, hfate⟩

end Outlet

namespace Fleet

variable {f : Fleet} {d e : DeviceId} {r : Reconciler}

/-! ## Workers by device -/

theorem find?_insertWorker (d e : DeviceId) (w : Worker) (ws : List (DeviceId × Worker)) :
    ((insertWorker d w ws).find? (·.1 = e)).map (·.2) =
      if e = d then some w else (ws.find? (·.1 = e)).map (·.2) := by
  induction ws with
  | nil => by_cases he : d = e <;> simp [insertWorker, he, eq_comm]
  | cons p rest ih =>
    obtain ⟨d', w'⟩ := p
    unfold insertWorker
    split
    · by_cases he : d = e
      · simp [he]
      · simp [he, Ne.symm he]
    · split
      · next hsame =>
        by_cases he : d = e
        · simp [he]
        · simp [he, Ne.symm he, ← hsame]
      · next hother =>
        by_cases he : d' = e
        · simp [he, he ▸ Ne.symm hother]
        · simp [he, ih]

/-- A worker that is put in its place displaces only its predecessor. -/
theorem worker?_setWorker (f : Fleet) (d e : DeviceId) (w : Worker) :
    (f.setWorker d w).worker? e = if e = d then some w else f.worker? e :=
  find?_insertWorker d e w f.workers

theorem mem_devices_iff : d ∈ f.devices ↔ f.worker? d ≠ none := by
  unfold devices worker?
  rw [ne_eq, Option.map_eq_none_iff, List.find?_eq_none, List.mem_map]
  simp

/-! ## Settings -/

/-- What no order changes: what the fleet was set up with, and what becomes of attempts. -/
def settings (f : Fleet) : Policy × ℕ × (ℕ → Fate) := (f.policy, f.depth, f.outlet.fate)

/-- A fleet starts without workers, and with the policy of its settings. -/
theorem begin_ok {depth : ℕ} {ticks : Counter} {backfillOnGap : Bool} {outlet : Outlet}
    (h : Fleet.begin depth ticks backfillOnGap outlet = .ok f) :
    ∃ policy, Policy.ofTicks ticks backfillOnGap = .ok policy ∧
      f = ⟨policy, depth, outlet, []⟩ := by
  unfold Fleet.begin policyOf at h
  split at h
  · cases h
  · cases hpolicy : Policy.ofTicks ticks backfillOnGap with
    | error cause =>
      rw [hpolicy] at h
      cases h
    | ok policy =>
      rw [hpolicy] at h
      cases h
      exact ⟨policy, rfl, rfl⟩

/-! ## Workers that take something -/

/-- The fleet after the worker of a device, with the reconciler `r`, took a stimulus. -/
def serve (f : Fleet) (d : DeviceId) (r : Reconciler) (u : Stimulus) : Fleet :=
  match r.apply u with
  | .ok a => (f.settle d a).fleet
  | .error _ => f.setWorker d (.running r)

theorem fleet_settle (f : Fleet) (d : DeviceId) (a : Reaction) :
    (f.settle d a).fleet =
      Fleet.setWorker { f with outlet := (f.outlet.deliver a.sent).outlet } d
        (if (f.outlet.deliver a.sent).interruption = some .crashed then .crashed
          else .running a.next) := by
  unfold settle
  dsimp only
  split
  · next h => rw [h]; rfl
  · next h => rw [h]; rfl
  · next h => rw [h]; rfl

/-- The order is carried out unless one of the attempts crashes. -/
theorem result_settle (f : Fleet) (d : DeviceId) (a : Reaction) :
    (f.settle d a).result =
      if CrashAmong f.outlet.fate f.outlet.attempts (f.settle d a).fleet.outlet.attempts
      then .error (.stopped d) else .ok () := by
  have hcrash : (f.outlet.deliver a.sent).interruption = some .crashed ↔
      CrashAmong f.outlet.fate f.outlet.attempts (f.settle d a).fleet.outlet.attempts := by
    rw [fleet_settle]
    exact f.outlet.crashed_iff a.sent
  rw [← if_congr hcrash rfl rfl]
  unfold settle
  dsimp only
  split
  · next h => rw [h]; rfl
  · next h => rw [h]; rfl
  · next h => rw [h]; rfl

@[simp] theorem settings_serve (f : Fleet) (d : DeviceId) (r : Reconciler) (u : Stimulus) :
    (f.serve d r u).settings = f.settings := by
  unfold serve
  split
  · rw [fleet_settle]
    exact congrArg (fun fate => (f.policy, f.depth, fate)) (f.outlet.fate_deliver _)
  · rfl

theorem worker?_serve_of_ne (hne : e ≠ d) (r : Reconciler) (u : Stimulus) :
    (f.serve d r u).worker? e = f.worker? e := by
  unfold serve
  split
  · rw [fleet_settle, worker?_setWorker, if_neg hne]
    rfl
  · rw [worker?_setWorker, if_neg hne]

/-- **A worker that takes something goes on with its reconciler, unless one of the attempts that it
makes crashes.** -/
theorem worker?_serve (f : Fleet) (d : DeviceId) (r : Reconciler) (u : Stimulus) :
    CrashAmong f.outlet.fate f.outlet.attempts (f.serve d r u).outlet.attempts ∧
        (f.serve d r u).worker? d = some .crashed ∨
      ¬ CrashAmong f.outlet.fate f.outlet.attempts (f.serve d r u).outlet.attempts ∧
        (f.serve d r u).worker? d = some (.running (r.after u)) := by
  unfold serve Reconciler.after
  cases r.apply u with
  | error cause =>
    refine .inr ⟨not_crashAmong_self _ _, ?_⟩
    rw [worker?_setWorker, if_pos rfl]
  | ok a =>
    dsimp only
    rw [fleet_settle, worker?_setWorker, if_pos rfl]
    by_cases hcrash : (f.outlet.deliver a.sent).interruption = some .crashed
    · rw [if_pos hcrash]
      exact .inl ⟨(f.outlet.crashed_iff a.sent).mp hcrash, rfl⟩
    · rw [if_neg hcrash]
      exact .inr ⟨mt (f.outlet.crashed_iff a.sent).mpr hcrash, rfl⟩

/-! ## Orders -/

/-- What can be asked about a device. -/
inductive Question
  | state
  | status
  | history
deriving DecidableEq

/-- What is answered. -/
inductive Answer
  /-- The order is carried out. -/
  | done
  | state (state : UploadState)
  | status (status : Option Status)
  | history (history : List Placed)
deriving DecidableEq

/-- The answer that a reconciler gives. -/
def Question.answer : Question → Reconciler → Answer
  | .state, r => .state r.state
  | .status, r => .status r.status?
  | .history, r => .history r.journal.history

/-- What a fleet can be told. -/
inductive Order
  /-- An event goes to the worker of its device. -/
  | dispatch (now : Instant) (m : Inbound)
  | ask (device : DeviceId) (question : Question)
  /-- The journal of the device is dropped. -/
  | reset (device : DeviceId)
  | shutdown
  /-- The receiver of the reports is gone. -/
  | closeOutlet
deriving DecidableEq

/-- The device that the order concerns. -/
def Order.device? : Order → Option DeviceId
  | .dispatch _ m => some m.device
  | .ask d _ => some d
  | .reset d => some d
  | .shutdown | .closeOutlet => none

/-- Ending all workers concerns no device in particular. -/
theorem Order.ne_shutdown {o : Order} (hd : o.device? = some d) : o ≠ .shutdown := by
  rintro rfl
  cases hd

/-- The order is for an event to be dispatched. -/
def Order.isDispatch : Order → Bool
  | .dispatch .. => true
  | .ask .. | .reset _ | .shutdown | .closeOutlet => false

/-- What the order has happen to the reconciler of a device. -/
def Order.stimulus? (d : DeviceId) : Order → Option Stimulus
  | .dispatch now m => if m.device = d then some (.event now m) else none
  | .reset e => if e = d then some .reset else none
  | .ask .. | .shutdown | .closeOutlet => none

/-- What comes of an order: the answer, and the fleet afterwards. -/
def obey (f : Fleet) : Order → Except Error Answer × Fleet
  | .dispatch now m => ((f.dispatch now m).result.map fun _ => .done, (f.dispatch now m).fleet)
  | .ask d question => (f.query d question.answer, f)
  | .reset d => ((f.resetDevice d).result.map fun _ => .done, (f.resetDevice d).fleet)
  | .shutdown => (f.shutdown.result.map fun _ => .done, f.shutdown.fleet)
  | .closeOutlet => (.ok .done, f.closeOutlet)

/-! ## The rules -/

/-- What comes of an order: the answer, and the fleet afterwards. -/
inductive Obeys (f : Fleet) : Order → Except Error Answer → Fleet → Prop
  /-- A running worker is asked. -/
  | answered {d : DeviceId} {question : Question} {r : Reconciler}
      (hw : f.worker? d = some (.running r)) :
      Obeys f (.ask d question) (.ok (question.answer r)) f
  /-- An event goes to a running worker. -/
  | dispatched {now : Instant} {m : Inbound} {r : Reconciler}
      (hw : f.worker? m.device = some (.running r)) :
      Obeys f (.dispatch now m) (.ok .done) (f.serve m.device r (.event now m))
  /-- The first event of a device goes to a worker that starts with it. -/
  | tracked {now : Instant} {m : Inbound} (hw : f.worker? m.device = none)
      (hdepth : f.depth ≤ Queue.maxCapacity) :
      Obeys f (.dispatch now m) (.ok .done)
        (f.serve m.device (.begin m.device f.policy) (.event now m))
  /-- There is no queue for the events of another device. -/
  | tooDeep {now : Instant} {m : Inbound} (hw : f.worker? m.device = none)
      (hdepth : Queue.maxCapacity < f.depth) :
      Obeys f (.dispatch now m) (.error (.tooDeep f.depth)) f
  /-- A running worker drops its journal, which it may not survive. -/
  | dropped {d : DeviceId} {r : Reconciler} (hw : f.worker? d = some (.running r)) :
      Obeys f (.reset d)
        (if CrashAmong f.outlet.fate f.outlet.attempts (f.serve d r .reset).outlet.attempts
          then .error (.stopped d) else .ok .done)
        (f.serve d r .reset)
  /-- The worker of the device has crashed. -/
  | stopped {o : Order} {d : DeviceId} (ho : o.device? = some d)
      (hw : f.worker? d = some .crashed) : Obeys f o (.error (.stopped d)) f
  /-- The device is not known, and its first event is still to come. -/
  | unknown {o : Order} {d : DeviceId} (ho : o = .reset d ∨ ∃ question, o = .ask d question)
      (hw : f.worker? d = none) : Obeys f o (.error (.unknown d)) f
  /-- All workers end. -/
  | ended : Obeys f .shutdown (.ok .done) { f with workers := [] }
  /-- The receiver of the reports is gone. -/
  | closed : Obeys f .closeOutlet (.ok .done) f.closeOutlet

theorem deliverTo_eq (f : Fleet) (r : Reconciler) (now : Instant) (m : Inbound) :
    (f.deliverTo r now m).result = .ok () ∧
      (f.deliverTo r now m).fleet = f.serve m.device r (.event now m) := by
  have happly : r.apply (.event now m) = r.handle now m := rfl
  unfold deliverTo serve
  rw [happly]
  cases r.handle now m with
  | ok a => exact ⟨rfl, rfl⟩
  | error cause => exact ⟨rfl, rfl⟩

theorem obeys_dispatch (f : Fleet) (now : Instant) (m : Inbound) :
    Obeys f (.dispatch now m) (f.obey (.dispatch now m)).1 (f.obey (.dispatch now m)).2 := by
  unfold obey dispatch
  dsimp only
  cases hw : f.worker? m.device with
  | none =>
    dsimp only
    split
    · next hdepth => exact .tooDeep hw hdepth
    · next hdepth =>
      obtain ⟨hresult, hfleet⟩ := f.deliverTo_eq (.begin m.device f.policy) now m
      dsimp only
      rw [hresult, hfleet]
      exact .tracked hw (Nat.not_lt.mp hdepth)
  | some w =>
    cases w with
    | crashed => exact .stopped rfl hw
    | running r =>
      obtain ⟨hresult, hfleet⟩ := f.deliverTo_eq r now m
      dsimp only
      rw [hresult, hfleet]
      exact .dispatched hw

theorem obeys_reset (f : Fleet) (d : DeviceId) :
    Obeys f (.reset d) (f.obey (.reset d)).1 (f.obey (.reset d)).2 := by
  unfold obey resetDevice query
  dsimp only
  cases hw : f.worker? d with
  | none => exact .unknown (.inl rfl) hw
  | some w =>
    cases w with
    | crashed => exact .stopped rfl hw
    | running r =>
      have hrule : Obeys f (.reset d) _ (f.settle d r.reset).fleet := .dropped hw
      dsimp only
      rw [result_settle, apply_ite (Except.map _)]
      exact hrule

/-- **What comes of an order follows a rule.** -/
theorem obeys (f : Fleet) (o : Order) : Obeys f o (f.obey o).1 (f.obey o).2 := by
  cases o with
  | dispatch now m => exact f.obeys_dispatch now m
  | ask d question =>
    unfold obey query
    dsimp only
    cases hw : f.worker? d with
    | none => exact .unknown (.inr ⟨question, rfl⟩) hw
    | some w =>
      cases w with
      | crashed => exact .stopped rfl hw
      | running r => exact .answered hw
  | reset d => exact f.obeys_reset d
  | shutdown => exact .ended
  | closeOutlet => exact .closed

/-- Every rule keeps the settings. -/
theorem Obeys.settings {o : Order} {answer : Except Error Answer} {g : Fleet}
    (h : Obeys f o answer g) : g.settings = f.settings := by
  cases h with
  | dispatched | tracked | dropped => exact settings_serve ..
  | answered | tooDeep | stopped | unknown | ended | closed => rfl

end Fleet

end Logbook
