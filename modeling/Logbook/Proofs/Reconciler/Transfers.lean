import Logbook.Proofs.Journal.Needed
import Logbook.Proofs.Reconciler.Run
import Logbook.Proofs.Session.Accounts

/-!
# How a transfer starts

A transfer asks for what the session needs, and is over at once if nothing is expected. So it is
when all that the caller wants is held. Whether it is asked for once more depends on what lies below
it: a request leaves out only the run of records from the lowest held position on, and a hole ends
that run.

- `Session.started`: the session and the state with which a transfer begins.
- `Reconciler.Step.starts`: what becomes of a reconciler, and what it asks for.
- `Store.ofBounds?_resumeFrom_of_seamless`, `Store.ofBounds?_resumeFrom_of_not_seamless`: what is
  asked for of held positions, without a hole below them and with one.
- `Reconciler.start_of_held`: a transfer of held positions.
- `Reconciler.held_is_asked_for_again`: it may ask for them.
-/

namespace Logbook

open Rehearsal Script

variable {first last : Position}

/-! ## The start of a transfer -/

/-- The session in which a transfer begins, and the state in which it begins. -/
def Session.started (s : Session) (first last : Position) : Session × UploadState :=
  match Span.ofBounds? (s.store.resumeFrom first) last with
  | none => (s.finish, .ofStatus s.status)
  | some span =>
    if (s.asked span span.last.next).progress.isComplete then
      ((s.asked span span.last.next).finish, .ofStatus s.status)
    else (s.asked span span.last.next, .inProgress 0 (.ofNat span.size))

namespace Session

@[simp] theorem store_started (s : Session) (first last : Position) :
    (s.started first last).1.store = s.store := by
  unfold started
  split
  · rfl
  · split <;> rfl

/-- A transfer begins, or is over at once. -/
theorem state_started (s : Session) (first last : Position) :
    (s.started first last).2.isInProgress ∨ (s.started first last).2.isComplete := by
  unfold started
  split
  · exact .inr rfl
  · split
    · exact .inr rfl
    · exact .inl rfl

/-- A transfer of held positions is over at once, because a request for them expects nothing. -/
theorem state_started_of_covers {s : Session} (h : s.store.Covers ⟨first, last⟩) :
    (s.started first last).2 = .ofStatus s.status := by
  unfold started
  split
  · rfl
  · next span hspan =>
    obtain ⟨rfl, -, hset⟩ := Span.ofBounds?_eq_some.mp hspan
    have hcovers : s.store.Covers ⟨s.store.resumeFrom first, last⟩ := fun p hp =>
      h p ⟨Nat.le_trans (s.store.le_resumeFrom first) hp.1, hp.2⟩
    rw [if_pos ((accounts_asked hset _).isComplete_iff.mpr hcovers)]

end Session

/-- What a transfer leaves of a reconciler, when `s` is the session that is opened for it; and it
asks for what `s` needs. -/
theorem Reconciler.Step.starts {r q : Reconciler} {s : Session} {sent : List Outbound}
    {info : SessionInfo} {now : Instant} (hs : (r.opened info last now).journal.current = some s)
    (hstep : Step r (.event now ⟨r.device, .start first last info⟩) q sent) :
    q = { (r.opened info last now).enter (s.started first last).1 with
      state := (s.started first last).2 } ∧
      requestsOf sent = (Span.ofBounds? (s.store.resumeFrom first) last).toList := by
  have hneeded : (r.opened info last now).journal.needed? first last =
      Span.ofBounds? (s.store.resumeFrom first) last := Journal.needed?_of_current hs first last
  have hsame {s' : Session} (hs' : (r.opened info last now).journal.current = some s') :
      s' = s := Option.some_inj.mp (hs'.symm.trans hs)
  unfold Session.started
  rw [← hneeded]
  cases hstep with
  | ignored h => cases h
  | unneeded hs' hneed =>
    obtain rfl := hsame hs'
    rw [hneed]
    exact ⟨rfl, requestsOf_announce ..⟩
  | covered hs' hneed hdone =>
    obtain rfl := hsame hs'
    rw [hneed]
    dsimp only
    rw [if_pos hdone]
    exact ⟨rfl, congrArg (_ :: ·) (requestsOf_announce ..)⟩
  | asked hs' hneed hopen =>
    obtain rfl := hsame hs'
    rw [hneed]
    dsimp only
    rw [if_neg (Bool.not_eq_true _ ▸ hopen)]
    exact ⟨rfl, congrArg (_ :: ·) (requestsOf_announce ..)⟩

/-! ## What is asked for of held positions -/

namespace Store

variable {s : Store}

/-- Of held positions nothing is asked for if no hole is below them, and of none there is nothing
to be asked for. -/
theorem ofBounds?_resumeFrom_of_seamless (hheld : s.Covers ⟨first, last⟩)
    (h : last < first ∨ s.Seamless first ∧ last < .last) :
    Span.ofBounds? (s.resumeFrom first) last = none := by
  have hbeyond : last < s.resumeFrom first := by
    by_cases hle : first ≤ last
    · obtain ⟨hseamless, hbelow⟩ := h.resolve_left (Nat.not_lt.mpr hle)
      exact lt_resumeFrom hle hbelow hseamless hheld
    · exact Nat.lt_of_lt_of_le (Nat.lt_of_not_le hle) (s.le_resumeFrom first)
  exact if_neg fun hspan => Nat.not_lt.mpr hspan.1 hbeyond

/-- Behind a hole all positions are asked for, be they held or not. -/
theorem ofBounds?_resumeFrom_of_not_seamless (hle : first ≤ last) (hset : last.IsSet)
    (h : ¬ s.Seamless first) : Span.ofBounds? (s.resumeFrom first) last = some ⟨first, last⟩ := by
  rw [resumeFrom_of_not_seamless h]
  exact Span.ofBounds?_eq_some.mpr ⟨rfl, hle, hset⟩

end Store

/-! ## Transfers of held positions -/

namespace Reconciler

variable {r : Reconciler} {s : Session} {info : SessionInfo}

/-- A transfer of held positions is over at once, whatever it asks for. -/
theorem exists_over (hs : r.journal.current = some s) (hid : s.id = info.id)
    (hheld : s.store.Covers ⟨first, last⟩) (now : Instant) :
    ∃ a, r.handle now ⟨r.device, .start first last info⟩ = .ok a ∧
      requestsOf a.sent = (r.journal.prepare first last info now).2.toList ∧
      a.next.state = .ofStatus s.status := by
  have hin : r.journal.isIn info.id := isIn_iff.mpr ⟨s, hs, hid⟩
  have hopened : (r.opened info last now).journal.current = some s := by
    rw [← hs]
    exact congrArg Journal.current (Journal.ensure_of_isIn hin last now.notBeforeEpoch)
  obtain ⟨a, ha, hstep⟩ := exists_react r now (.start first last info)
  obtain ⟨hnext, hsent⟩ := hstep.starts hopened
  refine ⟨a, ha, ?_, ?_⟩
  · rw [hsent, Journal.prepare_of_current hs hid]
  · rw [hnext]
    exact Session.state_started_of_covers hheld

/-- **What a transfer of held positions asks for.** Whatever a journal holds: if all positions from
`first` to `last` are held and no hole is below them, nothing is asked for, at least below the last
position of a stream; and if a hole is below them, all of them are asked for. The transfer is over
at once. -/
theorem start_of_held (hs : r.journal.current = some s) (hid : s.id = info.id)
    (hset : last.IsSet) (hheld : s.store.Covers ⟨first, last⟩) (now : Instant) :
    ∃ a, r.handle now ⟨r.device, .start first last info⟩ = .ok a ∧
      requestsOf a.sent = (r.journal.prepare first last info now).2.toList ∧
      a.next.state = .ofStatus s.status ∧
      (last < first ∨ s.store.Seamless first ∧ last < .last →
        (r.journal.prepare first last info now).2 = none) ∧
      (first ≤ last → ¬ s.store.Seamless first →
        (r.journal.prepare first last info now).2 = some ⟨first, last⟩) := by
  obtain ⟨a, ha, hsent, hstate⟩ := exists_over hs hid hheld now
  rw [Journal.prepare_of_current hs hid] at hsent ⊢
  exact ⟨a, ha, hsent, hstate, Store.ofBounds?_resumeFrom_of_seamless hheld,
    fun hle => Store.ofBounds?_resumeFrom_of_not_seamless hle hset⟩

/-- The records at 0 and 2 come, and the one between them does not. -/
def zeroAndTwo : List Inbound :=
  [Device.standard.start (pos 0) (pos 2), Device.standard.bulk (pos 0),
    Device.standard.bulk (pos 2), Device.standard.cancel]

theorem held_of_zeroAndTwo :
    ∃ s, (rehearse .standard zeroAndTwo).2.journal.current = some s ∧
      s.id = Device.standard.info.id ∧ s.store.Covers (span 0 0) ∧ s.store.Covers (span 2 2) ∧
      s.store.Seamless (pos 0) ∧ ¬ s.store.Seamless (pos 2) := by
  have hany : (rehearse .standard zeroAndTwo).2.journal.current.any fun s =>
      s.id = Device.standard.info.id ∧ s.store.Covers (span 0 0) ∧ s.store.Covers (span 2 2) ∧
        s.store.Seamless (pos 0) ∧ ¬ s.store.Seamless (pos 2) := by decide
  obtain ⟨s, hs, h⟩ := (Option.any_eq_true _ _).mp hany
  exact ⟨s, hs, of_decide_eq_true h⟩

/-- After it the record at 0 is not asked for again, and the one at 2 is. -/
theorem start_of_held_around_a_hole :
    ∃ past r s a b, Run (begin Device.standard.id .standard) past r ∧
      r.journal.current = some s ∧ s.id = Device.standard.info.id ∧
      s.store.Covers (span 0 0) ∧ s.store.Seamless (pos 0) ∧
      r.handle now (Device.standard.start (pos 0) (pos 0)) = .ok a ∧ requestsOf a.sent = [] ∧
      a.next.state = .ofStatus s.status ∧
      s.store.Covers (span 2 2) ∧ ¬ s.store.Seamless (pos 2) ∧
      r.handle now (Device.standard.start (pos 2) (pos 2)) = .ok b ∧
      requestsOf b.sent = [span 2 2] ∧ b.next.state = .ofStatus s.status := by
  have hrun := run_rehearse .standard zeroAndTwo
  obtain ⟨s, hs, hid, hzero, htwo, hseamless, hhole⟩ := held_of_zeroAndTwo
  obtain ⟨a, ha, hasent, hastate, hnone, -⟩ := start_of_held hs hid (by decide) hzero now
  obtain ⟨b, hb, hbsent, hbstate, -, hsome⟩ := start_of_held hs hid (by decide) htwo now
  rw [hnone (.inr ⟨hseamless, by decide⟩)] at hasent
  rw [hsome (by decide) hhole] at hbsent
  exact ⟨_, _, s, a, b, hrun, hs, hid, hzero, hseamless, ha, hasent, hastate, htwo, hhole, hb,
    hbsent, hbstate⟩

/-- The record at the last position of a stream comes. -/
def lastOnly : List Inbound := [Device.standard.start .last .last, Device.standard.bulk .last]

theorem held_of_lastOnly :
    ∃ s, (rehearse .standard lastOnly).2.journal.current = some s ∧
      s.id = Device.standard.info.id ∧ s.store.Covers ⟨.last, .last⟩ ∧ s.store.Seamless .last := by
  have hany : (rehearse .standard lastOnly).2.journal.current.any fun s =>
      s.id = Device.standard.info.id ∧ s.store.Covers ⟨.last, .last⟩ ∧ s.store.Seamless .last := by
    decide
  obtain ⟨s, hs, h⟩ := (Option.any_eq_true _ _).mp hany
  exact ⟨s, hs, of_decide_eq_true h⟩

/-- As long as `plain` is true of the records and the bounds, a transfer of held positions asks for
nothing. -/
def SparesHeld (plain : Store → Position → Position → Prop) : Prop :=
  ∀ (past : List Moment) (r : Reconciler) (s : Session) (first last : Position)
    (info : SessionInfo) (a : Reaction),
    Run (begin Device.standard.id .standard) past r → r.journal.current = some s →
      s.id = info.id → last.IsSet → (∀ p, first ≤ p → p ≤ last → p ∈ s.store) →
        plain s.store first last → r.handle now ⟨r.device, .start first last info⟩ = .ok a →
          (r.journal.prepare first last info now).2 = none ∧ requestsOf a.sent = []

/-- It does not ask for nothing in general: the record at 2 is asked for again behind a hole, and
the one at the last position even without a hole. -/
theorem held_is_asked_for_again :
    ¬ SparesHeld (fun _ _ _ => True) ∧ ¬ SparesHeld (fun _ _ last => last < .last) ∧
      ¬ SparesHeld (fun s first _ => s.Seamless first) := by
  have hbelow : ¬ SparesHeld fun _ _ last => last < .last := by
    intro hall
    obtain ⟨s, hs, hid, -, hheld, -⟩ := held_of_zeroAndTwo
    obtain ⟨a, ha, -⟩ := exists_react (rehearse .standard zeroAndTwo).2 now
      (.start (pos 2) (pos 2) Device.standard.info)
    obtain ⟨hnone, -⟩ := hall _ _ s (pos 2) (pos 2) _ a (run_rehearse .standard zeroAndTwo) hs hid
      (by decide) (fun p hge hle => hheld p ⟨hge, hle⟩) (show pos 2 < .last by decide) ha
    exact absurd hnone (by decide)
  refine ⟨fun hall => hbelow ?_, hbelow, fun hall => ?_⟩
  · intro past r s first last info a hrun hs hid hset hheld _
    exact hall past r s first last info a hrun hs hid hset hheld trivial
  · obtain ⟨s, hs, hid, hheld, hseamless⟩ := held_of_lastOnly
    obtain ⟨a, ha, -⟩ := exists_react (rehearse .standard lastOnly).2 now
      (.start .last .last Device.standard.info)
    obtain ⟨hnone, -⟩ := hall _ _ s .last .last _ a (run_rehearse .standard lastOnly) hs hid
      (by decide) (fun p hge hle => hheld p ⟨hge, hle⟩) hseamless ha
    exact absurd hnone (by decide)

end Reconciler

end Logbook
