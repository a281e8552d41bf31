import Logbook.Proofs.Reconciler.Outstanding

/-!
# How long the bulk channel may be silent

A session is patient with the bulk channel for a number of ticks. Every record of the cursor channel
takes one, whatever its position, and every record of the bulk channel with a place in the stream
gives all of them back. A transfer that runs out of them stalls: it goes on up to the last tick, and
ends with it.

- `Session.Stable`, `Reconciler.Run.stable`: a fact that every operation keeps holds of the current
  session after every run.
- `Session.Tolerant`: the patience of a session is never more than the policy allows.
- `Reconciler.Step.tick`, `Reconciler.Step.answer`: what a tick, and what an answer of the bulk
  channel, does to a running transfer.
- `Stimulus.Silent`, `ticks`: what can happen while the bulk channel is silent, and the ticks in it.
- `Reconciler.Running.silence`: a transfer outlasts fewer ticks than it has left.
- `Reconciler.stalls_at_last_tick`: it stalls at the last one.
-/

namespace Logbook

open Rehearsal Script

/-! ## Facts about the current session -/

namespace Session

/-- Every operation on a session keeps the fact. -/
structure Stable (P : Session → Prop) : Prop where
  receiveCursor : ∀ s x, P s → P (s.receiveCursor x)
  receiveBulk : ∀ s x, P s → P (s.receiveBulk x)
  asked : ∀ s span p, P s → P (s.asked span p)
  finish : ∀ s, P s → P s.finish
  forgetCursor : ∀ s, P s → P s.forgetCursor

/-- The session has the given tolerance, and no more patience than that. -/
structure Tolerant (allowed : Tolerance) (s : Session) : Prop where
  tolerance : s.tolerance = allowed
  patience : s.patience ≤ allowed.ticks

theorem tolerant_anchor (info : SessionInfo) (tolerance : Tolerance) (last : Position)
    (now : Instant) : Tolerant tolerance ((begin info tolerance).anchor last now) := by
  constructor
  · exact tolerance_anchor ..
  · rw [patience_anchor]
    exact UInt32.le_refl _

theorem stable_tolerant (tolerance : Tolerance) : Stable (Tolerant tolerance) where
  receiveCursor s x h := by
    constructor
    · rw [tolerance_receiveCursor, h.tolerance]
    · have hle := UInt32.le_iff_toNat_le.mp h.patience
      rw [patience_receiveCursor, UInt32.le_iff_toNat_le, Counter.toNat_pred]
      omega
  receiveBulk s x h := by
    constructor
    · rw [tolerance_receiveBulk, h.tolerance]
    · rw [patience_receiveBulk]
      split
      · rw [h.tolerance]
        exact UInt32.le_refl _
      · exact h.patience
  asked s span p h := by
    constructor
    · exact h.tolerance
    · show s.tolerance.ticks ≤ _
      rw [h.tolerance]
      exact UInt32.le_refl _
  finish s h := ⟨h.tolerance, h.patience⟩
  forgetCursor s h := ⟨h.tolerance, h.patience⟩

end Session

namespace Reconciler

variable {r q : Reconciler} {s t : Session} {u : Stimulus} {past : List Moment}
  {sent : List Outbound} {device : DeviceId} {policy : Policy} {P : Session → Prop}

/-- A fact that every operation keeps, and that holds of every session that opens, stays true of the
current session. -/
theorem Step.stable (hP : Session.Stable P)
    (hnew : ∀ info last now, P ((Session.begin info r.journal.tolerance).anchor last now))
    (h : Step r u q sent) (hr : ∀ s, r.journal.current = some s → P s) :
    ∀ t, q.journal.current = some t → P t := by
  intro t ht
  have hopened {info : SessionInfo} {last : Position} {now : Instant} {s : Session}
      (hs : (r.opened info last now).journal.current = some s) : P s := by
    rcases r.opened_cases info last now with ⟨-, heq⟩ | ⟨-, hcurrent⟩
    · rw [heq] at hs
      exact hr s hs
    · rw [hcurrent] at hs
      cases hs
      exact hnew ..
  cases h with
  | ignored | noticed | left => exact hr t ht
  | disconnected =>
    obtain ⟨s, hs, rfl⟩ := Option.map_eq_some_iff.mp ht
    exact hP.forgetCursor s (hr s hs)
  | dropped =>
    obtain ⟨s, hs, rfl⟩ := Option.map_eq_some_iff.mp ht
    exact hP.finish s (hr s hs)
  | ticked hs =>
    cases ht
    exact hP.receiveCursor _ _ (hr _ hs)
  | stalled hs =>
    cases ht
    exact hP.finish _ (hP.receiveCursor _ _ (hr _ hs))
  | @settled _ x _ s _ _ hs _ _ hclear =>
    have hreceived := hP.receiveCursor s x (hr s hs)
    cases hclear <;> cases ht
    · exact hreceived
    · exact hP.finish _ hreceived
  | @repaired _ x _ s _ _ _ hs _ _ hclear =>
    have hreceived := hP.receiveCursor s x (hr s hs)
    cases hclear <;> cases ht
    · exact hP.asked _ _ _ hreceived
    · exact hP.asked _ _ _ (hP.finish _ hreceived)
  | delivered hs | filling hs | added hs | late hs =>
    cases ht
    exact hP.receiveBulk _ _ (hr _ hs)
  | fetched hs | filled hs =>
    cases ht
    exact hP.finish _ (hP.receiveBulk _ _ (hr _ hs))
  | unneeded hs =>
    cases ht
    exact hP.finish _ (hopened hs)
  | covered hs =>
    cases ht
    exact hP.finish _ (hP.asked _ _ _ (hopened hs))
  | asked hs =>
    cases ht
    exact hP.asked _ _ _ (hopened hs)
  | cancelled hs =>
    cases ht
    exact hP.finish _ (hr _ hs)
  | reset => cases ht

theorem Run.stable (hP : Session.Stable P)
    (hnew : ∀ info last now, P ((Session.begin info policy.tolerance).anchor last now))
    (h : Run (begin device policy) past r) (hs : r.journal.current = some s) : P s := by
  suffices hall : r.journal.tolerance = policy.tolerance ∧
      ∀ s, r.journal.current = some s → P s from hall.2 s hs
  refine h.invariant (I := fun _ r => r.journal.tolerance = policy.tolerance ∧
    ∀ s, r.journal.current = some s → P s) ?_ ?_
  · refine ⟨rfl, ?_⟩
    intro s hs
    cases hs
  · rintro _ r u a ⟨htolerance, hr⟩ hstep
    exact ⟨hstep.keeps_tolerance.trans htolerance, hstep.stable hP (htolerance ▸ hnew) hr⟩

/-! ## Ticks and answers of a running transfer -/

/-- A tick makes no request. The transfer goes on, or it stalls. -/
theorem Step.tick {now : Instant} {x : Record} {info : SessionInfo} (hst : r.state.isInProgress)
    (hs : r.journal.current = some s) (hid : s.id = info.id)
    (h : Step r (.event now ⟨device, .cursor x info⟩) q sent) :
    requestsOf sent = [] ∧
      q = if (s.receiveCursor x).isStalled then
          { r.enter (s.receiveCursor x).finish with
            state := .ofStatus (s.receiveCursor x).status }
        else r.enter (s.receiveCursor x) := by
  have hnot : ¬ r.state.isComplete := UploadState.not_isComplete_of_isInProgress hst
  cases h with
  | ignored he =>
    rw [show r.state = .transferNeeded from he] at hst
    cases hst
  | noticed he =>
    rw [he] at hst
    cases hst
  | left _ hout =>
    rw [isIn_iff.mpr ⟨s, hs, hid⟩] at hout
    cases hout
  | ticked hs' _ _ hlive =>
    obtain rfl := Option.some_inj.mp (hs'.symm.trans hs)
    exact ⟨rfl, (if_neg hlive).symm⟩
  | stalled hs' _ _ hstalled =>
    obtain rfl := Option.some_inj.mp (hs'.symm.trans hs)
    exact ⟨requestsOf_announce .., (if_pos hstalled).symm⟩
  | settled _ _ hcomplete => exact absurd hcomplete hnot
  | repaired _ _ hcomplete => exact absurd hcomplete hnot

/-- An answer of the bulk channel ends the transfer, or the transfer goes on. -/
theorem Step.answer {now : Instant} {x : Record} (hst : r.state.isInProgress)
    (hs : r.journal.current = some s) (h : Step r (.event now ⟨device, .bulk x⟩) q sent) :
    q = if (s.receiveBulk x).progress.isComplete then
        { r.enter (s.receiveBulk x).finish with state := .ofStatus (s.receiveBulk x).status }
      else
        { r.enter (s.receiveBulk x) with
          state := .inProgress (s.receiveBulk x).progress.transferred
            (s.receiveBulk x).progress.requested } := by
  have hnot : ¬ r.state.isComplete := UploadState.not_isComplete_of_isInProgress hst
  cases h with
  | ignored hnone =>
    rw [Ignores, hs] at hnone
    cases hnone
  | delivered hs' _ hopen =>
    obtain rfl := Option.some_inj.mp (hs'.symm.trans hs)
    exact (if_neg (Bool.eq_false_iff.mp hopen)).symm
  | fetched hs' _ hdone =>
    obtain rfl := Option.some_inj.mp (hs'.symm.trans hs)
    exact (if_pos hdone).symm
  | filling _ hcomplete | filled _ hcomplete | added _ hcomplete => exact absurd hcomplete hnot
  | late _ hidle => rcases hidle with he | he <;> rw [he] at hst <;> cases hst

end Reconciler

/-! ## Silence on the bulk channel -/

/-- What can happen while the bulk channel is silent: the device, which is in the session with this
id, pushes records, the link is up, and answers come that have no place in the stream. -/
inductive Stimulus.Silent (device : DeviceId) (id : SessionId) : Stimulus → Prop
  | broadcast {now : Instant} {x : Record} {info : SessionInfo} (hid : info.id = id) :
      Silent device id (.event now ⟨device, .cursor x info⟩)
  | linkUp {now : Instant} : Silent device id (.event now ⟨device, .link true⟩)
  | unset {now : Instant} {x : Record} (hunset : ¬ x.position.IsSet) :
      Silent device id (.event now ⟨device, .bulk x⟩)

/-- The device pushes a record. -/
def Stimulus.isBroadcast : Stimulus → Bool
  | .event _ ⟨_, .cursor ..⟩ => true
  | _ => false

/-- How many records the device pushes. -/
def ticks (us : List Stimulus) : ℕ := us.countP Stimulus.isBroadcast

theorem ticks_cons (u : Stimulus) (us : List Stimulus) :
    ticks (u :: us) = ticks us + ticks [u] := by
  rw [ticks, List.countP_cons, ticks, ticks, List.countP_singleton]

namespace Reconciler

variable {r : Reconciler} {s t : Session} {u : Stimulus} {us : List Stimulus} {past : List Moment}
  {device : DeviceId} {policy : Policy}

/-- A transfer is running in the session. -/
structure Running (r : Reconciler) (s : Session) : Prop where
  current : r.journal.current = some s
  inProgress : r.state.isInProgress
  outstanding : r.Outstanding

/-- The last tick is the one before which a single one is left. -/
theorem isStalled_receiveCursor (s : Session) (x : Record) :
    (s.receiveCursor x).isStalled ↔ s.patience.toNat ≤ 1 := by
  rw [Session.isStalled_iff, Session.patience_receiveCursor, ← UInt32.toNat_inj,
    Counter.toNat_pred]
  show s.patience.toNat - 1 = 0 ↔ _
  omega

/-- While the bulk channel is silent a transfer goes on as it was, unless the last tick comes. -/
theorem Running.silent (h : Running r s) (hu : u.Silent r.device s.id)
    (hlast : ticks [u] < s.patience.toNat) :
    ∃ t, Running (r.after u) t ∧ t.id = s.id ∧ (r.after u).device = r.device ∧
      (r.after u).state = r.state ∧ t.patience.toNat + ticks [u] = s.patience.toNat := by
  cases hu with
  | @broadcast now x info hid =>
    have hlast : 1 < s.patience.toNat := hlast
    obtain ⟨sent, hstep⟩ := r.exists_step_after now (.cursor x info)
    have hout := h.outstanding.step hstep
    obtain ⟨-, hnext⟩ := hstep.tick h.inProgress h.current hid.symm
    have hlive := mt (isStalled_receiveCursor s x).mp (Nat.not_le.mpr hlast)
    rw [if_neg hlive] at hnext
    rw [hnext] at hout ⊢
    refine ⟨s.receiveCursor x, ⟨rfl, h.inProgress, hout⟩, Session.id_receiveCursor .., rfl, rfl, ?_⟩
    rw [Session.patience_receiveCursor, Counter.toNat_pred]
    show _ + 1 = _
    omega
  | @linkUp now =>
    obtain ⟨sent, hstep⟩ := r.exists_step_after now (.link true)
    generalize r.after _ = q at hstep ⊢
    cases hstep
    exact ⟨s, h, rfl, rfl, rfl, rfl⟩
  | @unset now x hunset =>
    obtain ⟨-, hawaiting, -, -, hst⟩ := h.outstanding.of_current h.current h.inProgress
    obtain ⟨sent, hstep⟩ := r.exists_step_after now (.bulk x)
    have hout := h.outstanding.step hstep
    have hnext := hstep.answer h.inProgress h.current
    -- the accounts are as they were, so something is still missing
    have hopen : ¬ s.progress.isComplete = true :=
      mt of_decide_eq_true (UInt32.not_le.mpr hawaiting.short)
    rw [Session.receiveBulk_of_unset hunset, if_neg hopen, ← hst] at hnext
    rw [hnext] at hout ⊢
    exact ⟨s, ⟨rfl, h.inProgress, hout⟩, rfl, rfl, rfl, rfl⟩

/-- **A transfer outlasts fewer ticks than it has left**, and then has that many fewer left. -/
theorem Running.silence (h : Running r s) (hus : ∀ u ∈ us, u.Silent r.device s.id)
    (hlast : ticks us < s.patience.toNat) :
    ∃ t, Running (r.replay us).2 t ∧ t.id = s.id ∧ (r.replay us).2.device = r.device ∧
      (r.replay us).2.state = r.state ∧ t.patience.toNat + ticks us = s.patience.toNat := by
  induction us generalizing r s with
  | nil => exact ⟨s, h, rfl, rfl, rfl, rfl⟩
  | cons u us ih =>
    rw [ticks_cons] at hlast ⊢
    obtain ⟨t, ht, hid, hdevice, hstate, hleft⟩ :=
      h.silent (hus u List.mem_cons_self) (by omega)
    have hrest : ∀ v ∈ us, v.Silent (r.after u).device t.id := by
      intro v hv
      rw [hid, hdevice]
      exact hus v (List.mem_cons_of_mem _ hv)
    obtain ⟨t', ht', hid', hdevice', hstate', hleft'⟩ := ih ht hrest (by omega)
    rw [snd_replay_cons]
    exact ⟨t', ht', hid'.trans hid, hdevice'.trans hdevice, hstate'.trans hstate, by omega⟩

/-- **The last tick ends it**, with what the session holds by then. -/
theorem Running.stalls (h : Running r s) (hu : u.Silent r.device s.id) (htick : u.isBroadcast)
    (hlast : s.patience.toNat = 1) :
    ∃ t, (r.after u).journal.current = some t ∧ t.id = s.id ∧
      (r.after u).state = .ofStatus t.status := by
  cases hu with
  | linkUp => cases htick
  | unset => cases htick
  | @broadcast now x info hid =>
    obtain ⟨sent, hstep⟩ := r.exists_step_after now (.cursor x info)
    obtain ⟨-, hnext⟩ := hstep.tick h.inProgress h.current hid.symm
    have hstalled := (isStalled_receiveCursor s x).mpr (Nat.le_of_eq hlast)
    rw [hnext, if_pos hstalled]
    exact ⟨_, rfl, Session.id_receiveCursor .., rfl⟩

/-- Over a record of the bulk channel that has a place in the stream, the transfer ends or gets
all its patience back. -/
theorem Running.revived {now : Instant} {x : Record} (h : Running r s) (hset : x.position.IsSet)
    (hgoes : (r.after (.event now ⟨r.device, .bulk x⟩)).state.isInProgress) :
    ∃ t, (r.after (.event now ⟨r.device, .bulk x⟩)).journal.current = some t ∧ t.id = s.id ∧
      t.patience = s.tolerance.ticks := by
  obtain ⟨sent, hstep⟩ := r.exists_step_after now (.bulk x)
  rw [hstep.answer h.inProgress h.current] at hgoes ⊢
  split at hgoes
  · cases hgoes
  · next hopen =>
    rw [if_neg hopen]
    refine ⟨_, rfl, Session.id_receiveBulk .., ?_⟩
    rw [Session.patience_receiveBulk, if_pos hset]

/-- **A transfer stalls at its last tick**, neither before nor after it, as long as the bulk channel
is silent. It never has more ticks left than the policy allows, and has them all back after a record
of the bulk channel that has a place in the stream. -/
theorem stalls_at_last_tick (h : Run (begin device policy) past r) (hst : r.state.isInProgress) :
    ∃ s, r.journal.current = some s ∧ 1 ≤ s.patience ∧ s.patience ≤ policy.tolerance.ticks ∧
      (∀ us, (∀ u ∈ us, u.Silent r.device s.id) →
        (ticks us < s.patience.toNat → (r.replay us).2.state = r.state) ∧
        ∀ u, u.Silent r.device s.id → u.isBroadcast → ticks us + 1 = s.patience.toNat →
          ∃ t, (r.replay (us ++ [u])).2.journal.current = some t ∧ t.id = s.id ∧
            (r.replay (us ++ [u])).2.state = .ofStatus t.status) ∧
      ∀ now x, x.position.IsSet →
        (r.after (.event now ⟨r.device, .bulk x⟩)).state.isInProgress →
          ∃ t, (r.after (.event now ⟨r.device, .bulk x⟩)).journal.current = some t ∧
            t.id = s.id ∧ t.patience = policy.tolerance.ticks := by
  have hout := outstanding_after_run h
  obtain ⟨transferred, requested, he⟩ := UploadState.isInProgress_iff.mp hst
  obtain ⟨-, s, hs, hawaiting, -⟩ := hout.transfer transferred requested he
  have hrunning : Running r s := ⟨hs, hst, hout⟩
  have htolerant : s.Tolerant policy.tolerance := by
    refine h.stable (Session.stable_tolerant policy.tolerance) ?_ hs
    intro info last now
    exact Session.tolerant_anchor info policy.tolerance last now
  refine ⟨s, hs, hawaiting.patient, htolerant.patience, ?_, ?_⟩
  · intro us hus
    constructor
    · intro hlast
      obtain ⟨-, -, -, -, hstate, -⟩ := hrunning.silence hus hlast
      exact hstate
    · intro u hu htick hlast
      obtain ⟨t, ht, hid, hdevice, -, hleft⟩ := hrunning.silence hus (by omega)
      rw [← hdevice, ← hid] at hu
      obtain ⟨t', ht', hid', hstate⟩ := ht.stalls hu htick (by omega)
      rw [replay_concat, snd_advance]
      exact ⟨t', ht', hid'.trans hid, hstate⟩
  · intro now x hset hgoes
    rw [← htolerant.tolerance]
    exact hrunning.revived hset hgoes

/-- Three ticks without a record of the bulk channel are too long. -/
def hasty : Policy := ⟨⟨3, by decide⟩, true⟩

/-- A transfer of two positions, and the first tick of it. -/
def firstTick : List Inbound :=
  [Device.standard.start (pos 0) (pos 1), Device.standard.cursor (pos 2)]

/-- Then the link is said to be up, another record is pushed, and an answer without a place in the
stream comes. -/
def secondTick : List Stimulus :=
  [.event now (Device.standard.link true), .event now (Device.standard.cursor (pos 0)),
    .event now (Device.standard.bulk .unset)]

/-- A pushed record without a place in the stream. -/
def thirdTick : Stimulus := .event now (Device.standard.cursor .unset)

/-- Up to the second tick the transfer goes on, and with the third one it is over. -/
theorem stalls_at_third_tick :
    ∃ past r s t, Run (begin Device.standard.id hasty) past r ∧ r.state = .inProgress 0 2 ∧
      r.journal.current = some s ∧ s.patience = 2 ∧
      (∀ u ∈ secondTick, u.Silent r.device s.id) ∧ ticks secondTick + 1 = s.patience.toNat ∧
      (r.replay secondTick).2.state = r.state ∧
      thirdTick.Silent r.device s.id ∧ thirdTick.isBroadcast ∧
      (r.replay (secondTick ++ [thirdTick])).2.journal.current = some t ∧ t.id = s.id ∧
      (r.replay (secondTick ++ [thirdTick])).2.state = .ofStatus t.status := by
  have hrun := run_rehearse hasty firstTick
  obtain ⟨s, hs, -, -, hsilent, -⟩ := stalls_at_last_tick hrun (by decide)
  have hopen : s.id = Device.standard.info.id ∧ s.patience = 2 := by
    have hall : (rehearse hasty firstTick).2.journal.current.all fun s =>
        s.id = Device.standard.info.id ∧ s.patience = 2 := by decide
    rw [hs] at hall
    exact of_decide_eq_true hall
  obtain ⟨hid, hpatience⟩ := hopen
  have hsecond : ∀ u ∈ secondTick,
      u.Silent (rehearse hasty firstTick).2.device s.id := by
    intro u hu
    rw [hid]
    simp only [secondTick, List.mem_cons, List.not_mem_nil, or_false] at hu
    rcases hu with rfl | rfl | rfl
    · exact .linkUp
    · exact .broadcast rfl
    · exact .unset (by decide)
  have hthird : thirdTick.Silent (rehearse hasty firstTick).2.device s.id := by
    rw [hid]
    exact .broadcast rfl
  have hlast : ticks secondTick + 1 = s.patience.toNat := by
    rw [hpatience]
    rfl
  obtain ⟨hgoes, hends⟩ := hsilent secondTick hsecond
  obtain ⟨t, ht, hsame, hstate⟩ := hends thirdTick hthird rfl hlast
  exact ⟨_, _, s, t, hrun, by decide, hs, hpatience, hsecond, hlast, hgoes (by omega), hthird, rfl,
    ht, hsame, hstate⟩

end Reconciler

end Logbook
