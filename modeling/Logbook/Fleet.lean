import Logbook.Delivery.Outlet
import Logbook.Reconciler.Handle

/-!
# Fleets

A fleet keeps the logs of many devices. Each device has a worker of its own, which starts with
the first event for the device and owns its reconciler; workers share nothing but the outlet for
their reports.

- `Fleet`: the workers by device, and the outlet.
- `Fleet.dispatch`, `Fleet.dispatchAll`: events go to their devices' workers.
- `Fleet.query`, `Fleet.resetDevice`: questions and orders to the worker of a device.
- `Fleet.shutdown`: all workers end.
-/

namespace Logbook

/-- What keeps the log of one device of a fleet. -/
inductive Worker
  | running (reconciler : Reconciler)
  /-- It was brought down while it handed over a report. -/
  | crashed
deriving DecidableEq

/-- The logs of many devices. -/
structure Fleet where
  /-- What each reconciler is set up with. -/
  policy : Policy
  /-- How many events may wait for a worker. -/
  depth : Nat
  outlet : Outlet
  /-- The workers in ascending order of their devices. -/
  workers : List (DeviceId × Worker)

namespace Fleet

/-- Why a fleet is not set up, or an order not carried out. -/
inductive Error
  /-- The policy is refused. -/
  | policy (cause : Refusal)
  /-- No event could ever wait for a worker. -/
  | zeroDepth
  /-- There is no queue that deep. -/
  | tooDeep (depth : Nat)
  /-- No event for the device was ever dispatched. -/
  | unknown (device : DeviceId)
  /-- The device's worker has crashed. -/
  | stopped (device : DeviceId)
deriving DecidableEq

/-- The cause in words. -/
def Error.message : Error → String
  | .policy cause => s!"core error: {cause.message}"
  | .zeroDepth => "invalid configuration: channel_capacity must be non-zero"
  | .tooDeep depth => s!"no queue holds {depth} events"
  | .unknown device => s!"unknown device: {device}"
  | .stopped device => s!"worker for device {device} stopped"

/-- How many events may usually wait for a worker. -/
def standardDepth : Nat := 256

/-- The policy of a fleet with these settings. The depth is looked at first. -/
def policyOf (depth : Nat) (ticks : Counter) (backfillOnGap : Bool) : Except Error Policy :=
  if depth = 0 then .error .zeroDepth
  else match Policy.ofTicks ticks backfillOnGap with
    | .ok policy => .ok policy
    | .error cause => .error (.policy cause)

/-- A fleet without devices. -/
def begin (depth : Nat) (ticks : Counter) (backfillOnGap : Bool) (outlet : Outlet) :
    Except Error Fleet :=
  (policyOf depth ticks backfillOnGap).map fun policy => ⟨policy, depth, outlet, []⟩

/-- What became of an order to a fleet, with what was delivered and noted meanwhile. -/
structure Response (α : Type) where
  result : Except Error α
  fleet : Fleet
  delivered : List Outbound
  notes : List Note

/-! ### Workers by device -/

/-- The list of workers with one worker put in its place. -/
def insertWorker (device : DeviceId) (worker : Worker) :
    List (DeviceId × Worker) → List (DeviceId × Worker)
  | [] => [(device, worker)]
  | (d, w) :: rest =>
    if device.word < d.word then (device, worker) :: (d, w) :: rest
    else if device = d then (device, worker) :: rest
    else (d, w) :: insertWorker device worker rest

/-- The worker of a device. -/
def worker? (f : Fleet) (device : DeviceId) : Option Worker :=
  (f.workers.find? (·.1 = device)).map (·.2)

/-- The fleet with the worker of one device put in its place. -/
def setWorker (f : Fleet) (device : DeviceId) (worker : Worker) : Fleet :=
  { f with workers := insertWorker device worker f.workers }

/-- The devices of the fleet, in ascending order. -/
def devices (f : Fleet) : List DeviceId := f.workers.map (·.1)

/-! ### Events and questions -/

/-- The fleet after the worker of a device reacted and handed over its reports. -/
def settle (f : Fleet) (device : DeviceId) (a : Reaction) : Response Unit :=
  let d := f.outlet.deliver a.sent
  let f := { f with outlet := d.outlet }
  match d.interruption with
  | none => ⟨.ok (), f.setWorker device (.running a.next), d.delivered, a.notes⟩
  | some (.closed cause) =>
    ⟨.ok (), f.setWorker device (.running a.next), d.delivered,
      a.notes ++ [.deliveryFailed device cause.message]⟩
  | some .crashed => ⟨.error (.stopped device), f.setWorker device .crashed, d.delivered, a.notes⟩

/-- The fleet after the running worker of a device took an event. -/
def deliverTo (f : Fleet) (r : Reconciler) (now : Instant) (m : Inbound) : Response Unit :=
  match r.handle now m with
  | .ok a => { f.settle m.device a with result := .ok () }
  | .error cause =>
    ⟨.ok (), f.setWorker m.device (.running r), [], [.eventRejected m.device cause.message]⟩

/-- An event goes to the worker of its device, which starts if it is the first one. The order is
carried out once the worker has the event, whatever then comes of it. -/
def dispatch (f : Fleet) (now : Instant) (m : Inbound) : Response Unit :=
  match f.worker? m.device with
  | some (.running r) => f.deliverTo r now m
  | some .crashed => ⟨.error (.stopped m.device), f, [], []⟩
  | none =>
    if Queue.maxCapacity < f.depth then ⟨.error (.tooDeep f.depth), f, [], []⟩
    else
      let response := f.deliverTo (.begin m.device f.policy) now m
      { response with notes := .deviceTracked m.device :: response.notes }

/-- Events go to the workers of their devices one after another, up to the first that is not
taken. -/
def dispatchAll (f : Fleet) (now : Instant) : List Inbound → Response Unit
  | [] => ⟨.ok (), f, [], []⟩
  | m :: rest =>
    let a := f.dispatch now m
    match a.result with
    | .error _ => a
    | .ok _ =>
      let b := a.fleet.dispatchAll now rest
      ⟨b.result, b.fleet, a.delivered ++ b.delivered, a.notes ++ b.notes⟩

/-- Asks the worker of a device. -/
def query {α : Type} (f : Fleet) (device : DeviceId) (question : Reconciler → α) :
    Except Error α :=
  match f.worker? device with
  | some (.running r) => .ok (question r)
  | some .crashed => .error (.stopped device)
  | none => .error (.unknown device)

/-- Has the worker of a device drop its journal. -/
def resetDevice (f : Fleet) (device : DeviceId) : Response Unit :=
  match f.query device Reconciler.reset with
  | .ok a => f.settle device a
  | .error cause => ⟨.error cause, f, [], []⟩

/-- The fleet whose outlet has lost its receiver. -/
def closeOutlet (f : Fleet) : Fleet := { f with outlet := f.outlet.close }

/-! ### The end -/

/-- What is noted when a worker ends, and whether it crashed before. -/
def endNote : DeviceId × Worker → Note
  | (device, .running _) => .workerEnded device
  | (device, .crashed) => .workerCrashed device

/-- The worker has crashed. -/
def isCrashed : DeviceId × Worker → Bool
  | (_, .crashed) => true
  | _ => false

/-- All workers end; the crashed ones are noted last. -/
def shutdown (f : Fleet) : Response Unit :=
  let (crashed, running) := f.workers.partition isCrashed
  ⟨.ok (), { f with workers := [] }, [], (running ++ crashed).map endNote⟩

end Fleet

end Logbook
