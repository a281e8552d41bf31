import Logbook.Proofs.Fleet.Isolation

/-!
# What a failed attempt costs

An attempt to hand over a report may fail without bringing down the worker that makes it. Then the
report is lost, and so are those that the worker has still to hand over for the same order; but the
worker goes on as if nothing had happened, and so does the rest of the fleet.

- `Outlet.IsCalm`: no attempt brings a worker down.
- `Handed`: reports are handed over in order, up to the first attempt that does not get through;
  `Outlet.handed_deliver` is the induction over the reports.
- `Fleet.delivers`: what an order has delivered.
- `Fleet.taker`, `Fleet.Served`: who takes what is ordered for a device, and what comes of it;
  `Fleet.taker_after` says who it is after a log.
- `Fleet.Agrees`: two fleets are the same but for their outlets, and remain so.
- `Fleet.delivered_up_to_failure`: what is delivered over a log, and what is lost.
-/

namespace Logbook

/-! ## Handing over reports -/

/-- How reports are handed over if `made` attempts were made before: what is delivered of those that
are sent, and the number of attempts made in the end. -/
inductive Handed (fate : ℕ → Fate) (made : ℕ) : List Outbound → List Outbound → ℕ → Prop
  /-- Every report gets through. -/
  | all {sent : List Outbound}
      (hthrough : ∀ n, made < n → n ≤ made + sent.length → fate n = .deliver) :
      Handed fate made sent sent (made + sent.length)
  /-- An attempt fails. Its report is lost, and no attempt is made for those after it. -/
  | cut {delivered rest : List Outbound} {lost : Outbound}
      (hthrough : ∀ n, made < n → n ≤ made + delivered.length → fate n = .deliver)
      (hfail : fate (made + delivered.length + 1) ≠ .deliver) :
      Handed fate made (delivered ++ lost :: rest) delivered (made + delivered.length + 1)

namespace Handed

variable {fate : ℕ → Fate} {made upTo : ℕ} {sent delivered : List Outbound}

/-- Nothing is sent. -/
theorem nil : Handed fate made [] [] made :=
  all fun _ hlt hle => absurd hle (Nat.not_le.mpr hlt)

/-- The first attempt fails. -/
theorem lost (m : Outbound) (rest : List Outbound) (hfail : fate (made + 1) ≠ .deliver) :
    Handed fate made (m :: rest) [] (made + 1) :=
  @cut fate made [] rest m (fun _ hlt hle => absurd hle (Nat.not_le.mpr hlt)) hfail

/-- One more attempt gets through before the others. -/
theorem cons (m : Outbound) (hfirst : fate (made + 1) = .deliver)
    (h : Handed fate (made + 1) sent delivered upTo) :
    Handed fate made (m :: sent) (m :: delivered) upTo := by
  have hboth {l : List Outbound}
      (hthrough : ∀ n, made + 1 < n → n ≤ made + 1 + l.length → fate n = .deliver) :
      ∀ n, made < n → n ≤ made + (m :: l).length → fate n = .deliver := by
    intro n hlt hle
    rw [List.length_cons] at hle
    rcases Nat.eq_or_lt_of_le hlt with heq | hlt
    · rw [← heq]
      exact hfirst
    · exact hthrough n hlt (by omega)
  have hcount (l : List Outbound) : made + 1 + l.length = made + (m :: l).length := by
    rw [List.length_cons]
    omega
  cases h with
  | all hthrough =>
    rw [hcount]
    exact .all (hboth hthrough)
  | cut hthrough hfail =>
    rw [hcount] at hfail ⊢
    exact .cut (hboth hthrough) hfail

/-- Nothing is lost if every attempt gets through. -/
theorem eq_of_forall_deliver (h : Handed fate made sent delivered upTo)
    (hall : ∀ n, fate n = .deliver) : delivered = sent := by
  cases h with
  | all => rfl
  | cut _ hfail => exact absurd (hall _) hfail

end Handed

namespace Outlet

variable {o : Outlet}

/-- No attempt brings down the worker that makes it. -/
def IsCalm (o : Outlet) : Prop := ∀ n, o.fate n ≠ .crash

/-- With a receiver an attempt gets through if that is its fate. -/
theorem obstacle?_eq_none_iff (hopen : o.isOpen) :
    o.obstacle? = none ↔ o.fate (o.attempts + 1) = .deliver := by
  unfold obstacle?
  split
  · next h => simp [h]
  · next h => simp [h]
  · next h => simp [h, hopen]

@[simp] theorem isOpen_deliver (o : Outlet) (sent : List Outbound) :
    (o.deliver sent).outlet.isOpen = o.isOpen := by
  induction sent generalizing o with
  | nil => rfl
  | cons m rest ih =>
    unfold deliver
    split
    · rfl
    · exact ih _

/-- **Reports are handed over in order, up to the first attempt that fails.** -/
theorem handed_deliver (hopen : o.isOpen) (sent : List Outbound) :
    Handed o.fate o.attempts sent (o.deliver sent).delivered
      (o.deliver sent).outlet.attempts := by
  induction sent generalizing o with
  | nil => exact .nil
  | cons m rest ih =>
    have hfirst := obstacle?_eq_none_iff hopen
    unfold deliver
    split
    · next hobstacle =>
      rw [hobstacle] at hfirst
      exact .lost m rest (mt hfirst.mpr (Option.some_ne_none _))
    · next hobstacle =>
      exact .cons m (hfirst.mp hobstacle) (ih (o := { o with attempts := o.attempts + 1 }) hopen)

/-- Over a calm outlet no worker is brought down. -/
theorem IsCalm.not_crashed (h : o.IsCalm) (sent : List Outbound) :
    (o.deliver sent).interruption ≠ some .crashed := by
  rw [ne_eq, crashed_iff]
  rintro ⟨n, -, -, hcrash⟩
  exact h n hcrash

end Outlet

namespace Fleet

variable {f g : Fleet} {d : DeviceId} {o : Order} {log : List Order} {r : Reconciler}
  {u : Stimulus} {a : Reaction}

/-! ## What an order has delivered -/

/-- What is delivered when an order is given. -/
def delivers (f : Fleet) : Order → List Outbound
  | .dispatch now m => (f.dispatch now m).delivered
  | .reset d => (f.resetDevice d).delivered
  | .shutdown => f.shutdown.delivered
  | .ask .. | .closeOutlet => []

theorem delivered_settle (f : Fleet) (d : DeviceId) (a : Reaction) :
    (f.settle d a).delivered = (f.outlet.deliver a.sent).delivered := by
  unfold settle
  dsimp only
  split <;> rfl

theorem delivered_deliverTo {now : Instant} {m : Inbound} (ha : r.handle now m = .ok a) :
    (f.deliverTo r now m).delivered = (f.outlet.deliver a.sent).delivered := by
  unfold deliverTo
  rw [ha]
  exact delivered_settle ..

theorem result_settle_of_calm (h : f.outlet.IsCalm) (d : DeviceId) (a : Reaction) :
    (f.settle d a).result = .ok () := by
  rw [result_settle, fleet_settle]
  exact if_neg (mt (f.outlet.crashed_iff a.sent).mpr (h.not_crashed a.sent))

theorem serve_of_calm (h : f.outlet.IsCalm) (ha : r.apply u = .ok a) (d : DeviceId) :
    f.serve d r u =
      { f with outlet := (f.outlet.deliver a.sent).outlet }.setWorker d (.running a.next) := by
  unfold serve
  rw [ha]
  dsimp only
  rw [fleet_settle, if_neg (h.not_crashed a.sent)]

/-- A worker that takes something goes on with its reconciler, whatever is lost. -/
theorem workers_serve (h : f.outlet.IsCalm) (d : DeviceId) (r : Reconciler) (u : Stimulus) :
    (f.serve d r u).workers = insertWorker d (.running (r.after u)) f.workers := by
  cases ha : r.apply u with
  | ok a =>
    rw [serve_of_calm h ha, Reconciler.after_of_ok ha]
    rfl
  | error cause =>
    unfold serve Reconciler.after
    rw [ha]
    rfl

/-! ## Who takes what is ordered -/

/-- The reconciler that takes what is ordered for a device, or why there is none. -/
def taker (f : Fleet) (d : DeviceId) (o : Order) : Except Error Reconciler :=
  match f.worker? d with
  | some (.running r) => .ok r
  | some .crashed => .error (.stopped d)
  | none =>
    if o.isDispatch then
      if Queue.maxCapacity < f.depth then .error (.tooDeep f.depth) else .ok (.begin d f.policy)
    else .error (.unknown d)

/-- A dispatched event goes to the reconciler that takes it. -/
theorem dispatch_eq (f : Fleet) (now : Instant) (m : Inbound) :
    (∃ r notes, f.taker m.device (.dispatch now m) = .ok r ∧
      f.dispatch now m = { f.deliverTo r now m with notes := notes }) ∨
    ∃ e, f.taker m.device (.dispatch now m) = .error e ∧
      f.dispatch now m = ⟨.error e, f, [], []⟩ := by
  unfold taker dispatch Order.isDispatch
  cases f.worker? m.device with
  | none =>
    by_cases hdepth : Queue.maxCapacity < f.depth
    · simp only [if_pos hdepth, ↓reduceIte]
      exact .inr ⟨_, rfl, rfl⟩
    · simp only [if_neg hdepth, ↓reduceIte]
      exact .inl ⟨_, _, rfl, rfl⟩
  | some w =>
    cases w with
    | running r => exact .inl ⟨r, _, rfl, rfl⟩
    | crashed => exact .inr ⟨_, rfl, rfl⟩

/-- The order to drop a journal goes to the reconciler that takes it. -/
theorem resetDevice_eq (f : Fleet) (d : DeviceId) :
    (∃ r, f.taker d (.reset d) = .ok r ∧ f.resetDevice d = f.settle d r.reset) ∨
    ∃ e, f.taker d (.reset d) = .error e ∧ f.resetDevice d = ⟨.error e, f, [], []⟩ := by
  unfold taker resetDevice query
  cases f.worker? d with
  | none => exact .inr ⟨_, rfl, rfl⟩
  | some w =>
    cases w with
    | running r => exact .inl ⟨r, rfl, rfl⟩
    | crashed => exact .inr ⟨_, rfl, rfl⟩

/-- What comes of an order that has something happen to the reconciler of a device. -/
inductive Served (f : Fleet) (d : DeviceId) (o : Order) (u : Stimulus) : Prop
  /-- A reconciler takes it, and what this one sends is handed over. -/
  | taken {r : Reconciler} (hr : f.taker d o = .ok r) (hdone : (f.obey o).1 = .ok .done)
      (hfleet : (f.obey o).2 = f.serve d r u)
      (hdelivers : ∀ a, r.apply u = .ok a →
        f.delivers o = (f.outlet.deliver a.sent).delivered) : Served f d o u
  /-- There is none to take it, and nothing happens. -/
  | refused {e : Error} (he : f.taker d o = .error e) (hsame : f.obey o = (.error e, f))
      (hnothing : f.delivers o = []) : Served f d o u

theorem served_dispatch (f : Fleet) (now : Instant) (m : Inbound) :
    f.Served m.device (.dispatch now m) (.event now m) := by
  rcases f.dispatch_eq now m with ⟨r, notes, hr, hdispatch⟩ | ⟨e, he, hdispatch⟩
  · obtain ⟨hdone, hserve⟩ := f.deliverTo_eq r now m
    refine .taken hr ?_ ?_ fun a ha => ?_
    · rw [obey, hdispatch, hdone]
      rfl
    · rw [obey, hdispatch, hserve]
    · rw [delivers, hdispatch]
      exact delivered_deliverTo ha
  · refine .refused he ?_ ?_
    · rw [obey, hdispatch]
      rfl
    · rw [delivers, hdispatch]

theorem served_reset (hcalm : f.outlet.IsCalm) (d : DeviceId) :
    f.Served d (.reset d) .reset := by
  rcases f.resetDevice_eq d with ⟨r, hr, hreset⟩ | ⟨e, he, hreset⟩
  · refine .taken hr ?_ ?_ fun a ha => ?_
    · rw [obey, hreset, result_settle_of_calm hcalm]
      rfl
    · rw [obey, hreset]
      rfl
    · cases ha
      rw [delivers, hreset]
      exact delivered_settle ..
  · refine .refused he ?_ ?_
    · rw [obey, hreset]
      rfl
    · rw [delivers, hreset]

/-- Only two kinds of orders have something happen to a reconciler. -/
theorem cases_of_stimulus (hu : o.stimulus? d = some u) :
    (∃ now m, o = .dispatch now m ∧ m.device = d ∧ u = .event now m) ∨
      o = .reset d ∧ u = .reset := by
  cases o with
  | dispatch now m =>
    obtain ⟨hd, rfl⟩ : m.device = d ∧ .event now m = u := by simpa [Order.stimulus?] using hu
    exact .inl ⟨now, m, rfl, hd, rfl⟩
  | reset e =>
    obtain ⟨rfl, rfl⟩ : e = d ∧ .reset = u := by simpa [Order.stimulus?] using hu
    exact .inr ⟨rfl, rfl⟩
  | ask | shutdown | closeOutlet => cases hu

/-- What an order has happen is taken by a reconciler, or nothing happens. -/
theorem served_of_stimulus (hcalm : f.outlet.IsCalm) (hu : o.stimulus? d = some u) :
    f.Served d o u := by
  rcases cases_of_stimulus hu with ⟨now, m, rfl, rfl, rfl⟩ | ⟨rfl, rfl⟩
  · exact f.served_dispatch now m
  · exact served_reset hcalm d

/-- What a reconciler takes is carried out: what it sends is handed over. -/
theorem handed_of_taken (hcalm : f.outlet.IsCalm) (hopen : f.outlet.isOpen)
    (hu : o.stimulus? d = some u) (hr : f.taker d o = .ok r) (ha : r.apply u = .ok a) :
    (f.obey o).1 = .ok .done ∧
      Handed f.outlet.fate f.outlet.attempts a.sent (f.delivers o)
        (f.obey o).2.outlet.attempts := by
  cases served_of_stimulus hcalm hu with
  | taken hr' hdone hfleet hdelivers =>
    cases hr.symm.trans hr'
    rw [hfleet, hdelivers a ha, serve_of_calm hcalm ha]
    exact ⟨hdone, Outlet.handed_deliver hopen a.sent⟩
  | refused he => cases hr.symm.trans he

/-- Orders that have nothing happen to a reconciler deliver nothing. -/
theorem delivers_of_no_stimulus (h : ∀ d, o.stimulus? d = none) :
    f.delivers o = [] ∧ (f.obey o).2.outlet.attempts = f.outlet.attempts := by
  cases o with
  | dispatch now m => simpa [Order.stimulus?] using h m.device
  | reset d => simpa [Order.stimulus?] using h d
  | ask | shutdown | closeOutlet => exact ⟨rfl, rfl⟩

/-! ## Two outlets -/

/-- Two fleets are the same but for their outlets. -/
structure Agrees (f g : Fleet) : Prop where
  policy : f.policy = g.policy
  depth : f.depth = g.depth
  workers : f.workers = g.workers

theorem Agrees.taker (h : f.Agrees g) (d : DeviceId) (o : Order) :
    f.taker d o = g.taker d o := by
  unfold Fleet.taker worker?
  rw [h.policy, h.depth, h.workers]

/-- **What a calm outlet lets through makes no difference** to what is answered, and to what the
workers are afterwards. -/
theorem Agrees.obey (h : f.Agrees g) (hf : f.outlet.IsCalm) (hg : g.outlet.IsCalm) (o : Order) :
    (f.obey o).1 = (g.obey o).1 ∧ (f.obey o).2.workers = (g.obey o).2.workers := by
  by_cases hu : ∃ d u, o.stimulus? d = some u
  · obtain ⟨d, u, hu⟩ := hu
    have htaker := h.taker d o
    -- both have the same taker, so that what comes of the order is of the same kind
    cases served_of_stimulus hf hu with
    | taken hr hdone hfleet =>
      cases served_of_stimulus hg hu with
      | taken hr' hdone' hfleet' =>
        cases hr.symm.trans (htaker.trans hr')
        rw [hdone, hdone', hfleet, hfleet', workers_serve hf, workers_serve hg, h.workers]
        exact ⟨rfl, rfl⟩
      | refused he' => cases hr.symm.trans (htaker.trans he')
    | refused he hsame =>
      cases served_of_stimulus hg hu with
      | taken hr' => cases he.symm.trans (htaker.trans hr')
      | refused he' hsame' =>
        cases he.symm.trans (htaker.trans he')
        rw [hsame, hsame']
        exact ⟨rfl, h.workers⟩
  · cases o with
    | dispatch now m => exact absurd ⟨m.device, _, if_pos rfl⟩ hu
    | reset d => exact absurd ⟨d, _, if_pos rfl⟩ hu
    | ask d question =>
      unfold Fleet.obey query worker?
      rw [h.workers]
      exact ⟨rfl, rfl⟩
    | shutdown => exact ⟨rfl, rfl⟩
    | closeOutlet => exact ⟨rfl, h.workers⟩

/-! ## Logs of orders -/

theorem isOpen_serve (f : Fleet) (d : DeviceId) (r : Reconciler) (u : Stimulus) :
    (f.serve d r u).outlet.isOpen = f.outlet.isOpen := by
  unfold serve
  split
  · rw [fleet_settle]
    exact f.outlet.isOpen_deliver _
  · rfl

/-- The receiver stays until it is told to go. -/
theorem isOpen_after (hlog : .closeOutlet ∉ log) :
    (f.after log).outlet.isOpen = f.outlet.isOpen := by
  induction log with
  | nil => rfl
  | cons o log ih =>
    obtain ⟨ho, hlog⟩ := not_or.mp (mt List.mem_cons.mpr hlog)
    have hstep : ((f.after log).obey o).2.outlet.isOpen = (f.after log).outlet.isOpen := by
      obtain ⟨answer, g, hobey, hrule⟩ :
          ∃ answer g, (f.after log).obey o = (answer, g) ∧ Obeys (f.after log) o answer g :=
        ⟨_, _, rfl, (f.after log).obeys o⟩
      rw [hobey]
      cases hrule with
      | dispatched | tracked | dropped => exact isOpen_serve ..
      | answered | tooDeep | stopped | unknown | ended => rfl
      | closed => exact absurd rfl ho
    exact hstep.trans (ih hlog)

theorem policy_after (f : Fleet) (log : List Order) : (f.after log).policy = f.policy :=
  congrArg (·.1) (f.settings_after log)

theorem depth_after (f : Fleet) (log : List Order) : (f.after log).depth = f.depth :=
  congrArg (·.2.1) (f.settings_after log)

theorem fate_after (f : Fleet) (log : List Order) : (f.after log).outlet.fate = f.outlet.fate :=
  congrArg (·.2.2) (f.settings_after log)

theorem calm_after (h : f.outlet.IsCalm) (log : List Order) : (f.after log).outlet.IsCalm := by
  unfold Outlet.IsCalm
  rw [fate_after]
  exact h

/-- Over a calm outlet no attempt crashes. -/
theorem not_since_crashes (h : f.outlet.IsCalm) (d : DeviceId) (log : List Order) :
    ¬ f.Since (Crashes d) log := by
  induction log with
  | nil => exact id
  | cons o log ih =>
    refine not_since_cons ?_ ih
    rintro ⟨-, n, -, -, hcrash⟩
    exact calm_after h log n hcrash

/-- The reconcilers that take something belong to the device. -/
theorem device_lone (f : Fleet) (d : DeviceId) (log : List Order) : (f.lone d log).device = d :=
  congrArg (·.1) (Reconciler.run_replay _ _).settings

/-- What is ordered for a device gets a reaction of its reconciler. -/
theorem exists_reaction (hu : o.stimulus? r.device = some u) : ∃ a, r.apply u = .ok a := by
  rcases cases_of_stimulus hu with ⟨now, ⟨device, e⟩, rfl, rfl, rfl⟩ | ⟨rfl, rfl⟩
  · obtain ⟨a, ha, -⟩ := r.exists_react now e
    exact ⟨a, ha⟩
  · exact ⟨_, rfl⟩

/-- An order for a device can be carried out after a log: there is a worker already, or one can
start. -/
def Reaches (f : Fleet) (log : List Order) (d : DeviceId) (o : Order) : Prop :=
  f.Since (Takes d) log ∨ o.isDispatch ∧ f.depth ≤ Queue.maxCapacity

/-- **What reaches a device is taken by the lone reconciler**, and nothing else is taken. -/
theorem taker_after (hf : f.workers = []) (hcalm : f.outlet.IsCalm) (d : DeviceId)
    (log : List Order) (o : Order) :
    (f.Reaches log d o → (f.after log).taker d o = .ok (f.lone d log)) ∧
      (¬ f.Reaches log d o → ∃ e, (f.after log).taker d o = .error e) := by
  have hw := tracked_after hf d log
  unfold taker
  rw [policy_after, depth_after]
  generalize (f.after log).worker? d = w at hw
  cases hw with
  | absent hnew _ hlone =>
    constructor
    · rintro (hknown | ⟨hdispatch, hsmall⟩)
      · exact absurd hknown hnew
      · rw [hlone hsmall]
        simp [hdispatch, Nat.not_lt.mpr hsmall]
    · intro hnot
      dsimp only
      split
      · next hdispatch =>
        rw [if_pos (Nat.not_le.mp fun hsmall => hnot (.inr ⟨hdispatch, hsmall⟩))]
        exact ⟨_, rfl⟩
      · exact ⟨_, rfl⟩
  | running hknown _ => exact ⟨fun _ => rfl, fun hnot => absurd (.inl hknown) hnot⟩
  | crashed _ hcrash => exact absurd hcrash (not_since_crashes hcalm d log)

/-- The fleet with an outlet that lets everything through. -/
def reliable (f : Fleet) : Fleet :=
  { f with outlet := { f.outlet with fate := fun _ => .deliver } }

theorem calm_reliable (f : Fleet) : f.reliable.outlet.IsCalm := fun _ => nofun

/-- **Attempts that fail make no difference to the workers.** -/
theorem agrees_after (hcalm : f.outlet.IsCalm) (log : List Order) :
    (f.after log).Agrees (f.reliable.after log) := by
  induction log with
  | nil => exact ⟨rfl, rfl, rfl⟩
  | cons o log ih =>
    refine ⟨?_, ?_, (ih.obey (calm_after hcalm log) (calm_after f.calm_reliable log) o).2⟩
    · rw [policy_after, policy_after]
      rfl
    · rw [depth_after, depth_after]
      rfl

/-- What reaches no device is not carried out, and nothing is handed over. -/
theorem delivers_nothing (hf : f.workers = []) (hcalm : f.outlet.IsCalm)
    (ho : ∀ d u, o.stimulus? d = some u → ¬ f.Reaches log d o) :
    (f.after log).delivers o = [] ∧
      ((f.after log).obey o).2.outlet.attempts = (f.after log).outlet.attempts := by
  by_cases hu : ∃ d u, o.stimulus? d = some u
  · obtain ⟨d, u, hu⟩ := hu
    obtain ⟨e, he⟩ := (taker_after hf hcalm d log o).2 (ho d u hu)
    cases served_of_stimulus (calm_after hcalm log) hu with
    | taken hr => cases hr.symm.trans he
    | refused _ hsame hnothing =>
      rw [hsame]
      exact ⟨hnothing, rfl⟩
  · refine delivers_of_no_stimulus fun d => Option.eq_none_iff_forall_ne_some.mpr fun u hsome => ?_
    exact hu ⟨d, u, hsome⟩

/-- **A failed attempt costs no more than the rest of its order's reports.** Over an outlet with a
receiver, whichever attempts fail without bringing down a worker, what is ordered for a device is
taken by the reconciler that took everything so far; what this one sends is delivered in order up
to the first attempt that fails, and no attempt is made for the rest. Workers and answers are those
of the fleet with an outlet that lets everything through. -/
theorem delivered_up_to_failure {depth : ℕ} {ticks : Counter} {backfillOnGap : Bool}
    {outlet : Outlet} (h : Fleet.begin depth ticks backfillOnGap outlet = .ok f)
    (hopen : outlet.isOpen) (hcalm : outlet.IsCalm) {log : List Order}
    (hlog : .closeOutlet ∉ log) :
    (f.after log).workers = (f.reliable.after log).workers ∧
    (∀ o, ((f.after log).obey o).1 = ((f.reliable.after log).obey o).1) ∧
    (∀ o d u, o.stimulus? d = some u → f.Reaches log d o →
      (f.after log).taker d o = .ok (f.lone d log) ∧ ((f.after log).obey o).1 = .ok .done ∧
      ∃ a, (f.lone d log).apply u = .ok a ∧
        (f.reliable.after log).delivers o = a.sent ∧
        Handed outlet.fate (f.after log).outlet.attempts a.sent ((f.after log).delivers o)
          ((f.after log).obey o).2.outlet.attempts) ∧
    (∀ o, (∀ d u, o.stimulus? d = some u → ¬ f.Reaches log d o) →
      (f.after log).delivers o = [] ∧
        ((f.after log).obey o).2.outlet.attempts = (f.after log).outlet.attempts) := by
  obtain ⟨hf, rfl⟩ : f.workers = [] ∧ f.outlet = outlet := by
    obtain ⟨policy, -, rfl⟩ := begin_ok h
    exact ⟨rfl, rfl⟩
  have hagrees := agrees_after hcalm log
  have hlossy := calm_after hcalm log
  have hreliable := calm_after f.calm_reliable log
  refine ⟨hagrees.workers, fun o => (hagrees.obey hlossy hreliable o).1, ?_, ?_⟩
  · intro o d u hu ho
    have hr : (f.after log).taker d o = .ok (f.lone d log) := (taker_after hf hcalm d log o).1 ho
    obtain ⟨a, ha⟩ : ∃ a, (f.lone d log).apply u = .ok a :=
      exists_reaction ((f.device_lone d log).symm ▸ hu)
    have hopen' : (f.after log).outlet.isOpen := (isOpen_after hlog).trans hopen
    obtain ⟨hdone, hhanded⟩ := handed_of_taken hlossy hopen' hu hr ha
    rw [fate_after] at hhanded
    -- the outlet that lets everything through has the same reconciler's reports
    have hopen'' : (f.reliable.after log).outlet.isOpen := (isOpen_after hlog).trans hopen
    obtain ⟨-, hall⟩ := handed_of_taken hreliable hopen'' hu ((hagrees.taker d o).symm.trans hr) ha
    rw [fate_after] at hall
    exact ⟨hr, hdone, a, ha, hall.eq_of_forall_deliver fun _ => rfl, hhanded⟩
  · exact fun o ho => delivers_nothing hf hcalm ho

section Refusal

open Rehearsal

/-- A fleet whose second attempt to hand over a report fails. -/
def flaky : Fleet :=
  ⟨.standard, standardDepth,
    ⟨fun n => if n = 2 then .refuse "queue full" else .deliver, 0, true⟩, []⟩

theorem calm_flaky : flaky.outlet.IsCalm := by
  intro n
  dsimp only [flaky]
  split <;> nofun

/-- The caller wants the record at the first position of a device. -/
def wanted : Order := .dispatch now (steady.start .zero .zero)

/-- The device has it. -/
def answered : Order := .dispatch now (steady.bulk .zero)

/-- The second report about what is wanted is lost; what the answer brings is delivered. -/
theorem delivered_around_a_refusal :
    Fleet.begin standardDepth Tolerance.standard.ticks true flaky.outlet = .ok flaky ∧
    flaky.outlet.isOpen ∧ flaky.outlet.IsCalm ∧ .closeOutlet ∉ [wanted] ∧
    (flaky.after [wanted]).workers = (flaky.reliable.after [wanted]).workers ∧
    (∃ a, (flaky.lone steady.id []).apply (.event now (steady.start .zero .zero)) = .ok a ∧
      Handed flaky.outlet.fate 0 a.sent (flaky.delivers wanted) 2 ∧
      a.sent.length = 2 ∧ (flaky.delivers wanted).length = 1) ∧
    ∃ a, (flaky.lone steady.id [wanted]).apply (.event now (steady.bulk .zero)) = .ok a ∧
      a.sent ≠ [] ∧ (flaky.after [wanted]).delivers answered = a.sent := by
  have hbegin : Fleet.begin standardDepth Tolerance.standard.ticks true flaky.outlet =
    .ok flaky := rfl
  have hlog : Order.closeOutlet ∉ [wanted] := by decide
  obtain ⟨-, -, hfirst, -⟩ :=
    delivered_up_to_failure hbegin rfl calm_flaky (List.not_mem_nil : Order.closeOutlet ∉ [])
  obtain ⟨hworkers, -, hsecond, -⟩ := delivered_up_to_failure hbegin rfl calm_flaky hlog
  obtain ⟨-, -, a, ha, hall, hhanded⟩ :=
    hfirst wanted steady.id _ rfl (.inr ⟨rfl, by decide⟩)
  obtain ⟨-, -, b, hb, hall', -⟩ :=
    hsecond answered steady.id _ rfl (.inr ⟨rfl, by decide⟩)
  refine ⟨hbegin, rfl, calm_flaky, hlog, hworkers, ⟨a, ha, hhanded, ?_, by decide⟩, b, hb, ?_, ?_⟩
  · rw [← hall]
    decide
  · rw [← hall']
    decide
  · rw [← hall']
    decide

end Refusal

end Fleet

end Logbook
