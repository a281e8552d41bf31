import Logbook.Proofs.Reconciler.Run

/-!
# What callers are told

A caller sees nothing but what is sent. That is enough: whoever starts from "unavailable" and takes
over every state that is sent has the state of the reconciler, and is never sent a state that it
has already.

- `told`: all that was sent in the past, the oldest first.
- `statesOf`, `UploadState.hear`: the states in it, and what a caller makes of them.
- `Reconciler.Announces`: a new state is sent once, an old one is not sent.
- `Reconciler.Step.announces`: every rule does that.
- `Reconciler.Faithful`: what was sent tells the state, and goes on to do so.
- `Reconciler.told_the_state`: so it does after every run.
-/

namespace Logbook

open Rehearsal Script

/-! ## Callers -/

/-- The states among reports. -/
def statesOf (sent : List Outbound) : List UploadState :=
  sent.filterMap fun m => match m.report with
    | .request _ => none
    | .state state => some state

/-- What a caller takes the state for after one more report. -/
def UploadState.hear (state : UploadState) (m : Outbound) : UploadState :=
  match m.report with
  | .request _ => state
  | .state state => state

/-- All that was sent in the past, the oldest first. -/
def told (past : List Moment) : List Outbound := past.reverse.flatMap (·.after.sent)

theorem told_cons (m : Moment) (past : List Moment) :
    told (m :: past) = told past ++ m.after.sent := by
  rw [told, List.reverse_cons, List.flatMap_append, List.flatMap_singleton]
  rfl

theorem statesOf_append (sent sent' : List Outbound) :
    statesOf (sent ++ sent') = statesOf sent ++ statesOf sent' := List.filterMap_append

/-- A caller ends with the last state that is sent. -/
theorem getLast?_hear (state : UploadState) (sent : List Outbound) :
    (state :: statesOf sent).getLast? = some (sent.foldl UploadState.hear state) := by
  induction sent generalizing state with
  | nil => rfl
  | cons m rest ih =>
    obtain ⟨device, report⟩ := m
    cases report with
    | request span => exact ih state
    | state next =>
      show (state :: next :: statesOf rest).getLast? = _
      rw [List.getLast?_cons_cons]
      exact ih next

namespace Reconciler

variable {r₀ r q : Reconciler} {u : Stimulus} {past : List Moment} {sent : List Outbound}
  {state : UploadState}

/-! ## One reaction -/

/-- The state that a reconciler goes over to is sent if it is a new one, and all that is sent is on
behalf of its own device. -/
structure Announces (r : Reconciler) (state : UploadState) (sent : List Outbound) : Prop where
  states : statesOf sent = if r.state = state then [] else [state]
  device : ∀ m ∈ sent, m.device = r.device

theorem announces_nil (h : r.state = state) : Announces r state [] where
  states := (if_pos h).symm
  device m hm := by cases hm

theorem announces_announce (r : Reconciler) (state : UploadState) :
    Announces r state (r.announce state) := by
  unfold announce
  by_cases h : r.state = state
  · rw [if_pos h]
    exact announces_nil h
  · rw [if_neg h]
    constructor
    · exact (if_neg h).symm
    · intro m hm
      rw [List.mem_singleton.mp hm]

theorem announces_of_ne (h : r.state ≠ state) : Announces r state [⟨r.device, .state state⟩] := by
  rw [← announce_of_ne h]
  exact announces_announce r state

/-- A request says nothing about the state. -/
theorem Announces.request (h : Announces r state sent) (span : Span) :
    Announces r state (⟨r.device, .request span⟩ :: sent) where
  states := h.states
  device := List.forall_mem_cons.mpr ⟨rfl, h.device⟩

/-- A state that is brought up to date is announced, unless a hole is yet to be filled. -/
theorem announces_refreshSent (hstate : q.state = r.state) (hdevice : q.device = r.device)
    (status : Status) : Announces r (q.refreshed status).state (q.refreshSent status) := by
  show Announces r (if (q.repairable? status).isSome then q.state else _) (if _ then _ else _)
  split
  · exact announces_nil hstate.symm
  · unfold announce
    rw [hstate, hdevice]
    exact announces_announce r _

/-- **Every rule announces the state that it leads to.** -/
theorem Step.announces (h : Step r u q sent) : Announces r q.state sent := by
  cases h with
  | ignored | ticked | filling | late | dropped => exact announces_nil rfl
  | disconnected hst => exact announces_of_ne hst
  | noticed hst =>
    refine announces_of_ne ?_
    rw [hst]
    exact UploadState.noConfusion
  | left hst =>
    refine announces_of_ne ?_
    intro he
    rw [he] at hst
    rcases hst with hst | hst <;> cases hst
  | stalled | settled | delivered | fetched | unneeded | cancelled => exact announces_announce r _
  | repaired _ _ _ hclear =>
    refine (announces_nil ?_).request _
    exact hclear.current.2.2.1.symm
  | filled | added =>
    refine announces_refreshSent ?_ ?_ _ <;> rfl
  | covered | asked => exact (announces_announce r _).request _
  | reset =>
    show Announces r (if r.state.isUnavailable then r.state else .transferNeeded) _
    split
    · exact announces_nil rfl
    · exact announces_announce r _

/-! ## Runs -/

/-- What was sent from `r₀` on tells the state of `r`. -/
structure Faithful (r₀ : Reconciler) (sent : List Outbound) (r : Reconciler) : Prop where
  /-- A caller who takes over every state has the state. -/
  heard : sent.foldl UploadState.hear r₀.state = r.state
  /-- No state is sent that the caller has already. -/
  news : (r₀.state :: statesOf sent).IsChain (· ≠ ·)
  own : ∀ m ∈ sent, m.device = r₀.device

/-- What is announced next is told, too. -/
theorem Faithful.announces {before : List Outbound} (h : Faithful r₀ before r)
    (hdevice : r.device = r₀.device) (hnext : Announces r q.state sent) :
    Faithful r₀ (before ++ sent) q where
  heard := by
    have hlast := getLast?_hear r.state sent
    rw [hnext.states] at hlast
    rw [List.foldl_append, h.heard]
    -- the caller ends with the state that is sent, or goes on with the one before
    split at hlast
    · next hsame => exact (Option.some_inj.mp hlast).symm.trans hsame
    · exact (Option.some_inj.mp hlast).symm
  news := by
    have hlast := getLast?_hear r₀.state before
    rw [h.heard] at hlast
    rw [statesOf_append, ← List.cons_append, hnext.states]
    split
    · rw [List.append_nil]
      exact h.news
    · next hne =>
      refine h.news.append (List.isChain_singleton _) ?_
      intro old hold new hnew
      rw [hlast] at hold
      cases hold
      cases hnew
      exact hne
  own := by
    intro m hm
    rcases List.mem_append.mp hm with hm | hm
    · exact h.own m hm
    · exact (hnext.device m hm).trans hdevice

theorem Run.faithful (h : Run r₀ past r) : r.device = r₀.device ∧ Faithful r₀ (told past) r := by
  refine h.invariant (I := fun past r => r.device = r₀.device ∧ Faithful r₀ (told past) r) ?_ ?_
  · exact ⟨rfl, rfl, List.isChain_singleton _, fun m hm => by cases hm⟩
  · rintro past r u a ⟨hdevice, htold⟩ hstep
    rw [told_cons]
    exact ⟨hstep.keeps_device.trans hdevice, htold.announces hdevice hstep.announces⟩

/-- **What was sent tells the whole state.** Whoever starts from "unavailable" and takes over every
state that was sent has the state of the reconciler; no state was sent twice in a row, nor was
"unavailable" sent first; and everything was sent on behalf of the reconciler's own device. -/
theorem told_the_state {device : DeviceId} {policy : Policy}
    (h : Run (begin device policy) past r) :
    (told past).foldl UploadState.hear .unavailable = r.state ∧
      (UploadState.unavailable :: statesOf (told past)).IsChain (· ≠ ·) ∧
      ∀ m ∈ told past, m.device = device := by
  obtain ⟨-, hheard, hnews, hown⟩ := h.faithful
  exact ⟨hheard, hnews, hown⟩

/-- A transfer of one position, after which a hole shows and the link goes down. -/
def holeAndBreak : List Inbound :=
  [Device.standard.cursor (pos 0), Device.standard.start (pos 0) (pos 0),
    Device.standard.bulk (pos 0), Device.standard.cursor (pos 2), Device.standard.link false]

/-- Four states are sent over it, and two requests. -/
theorem told_the_state_of_a_break :
    ∃ past r, Run (begin Device.standard.id .standard) past r ∧
      statesOf (told past) =
        [.transferNeeded, .inProgress 0 1, complete 0 0 1, .unavailable] ∧
      requestsOf (told past) = [span 0 0, span 1 1] ∧
      (told past).foldl UploadState.hear .unavailable = r.state ∧
      (UploadState.unavailable :: statesOf (told past)).IsChain (· ≠ ·) ∧
      ∀ m ∈ told past, m.device = Device.standard.id := by
  have hrun := run_rehearse .standard holeAndBreak
  exact ⟨_, _, hrun, by decide, by decide, told_the_state hrun⟩

end Reconciler

end Logbook
