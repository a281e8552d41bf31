import Logbook.Proofs.Reconciler.Run

/-!
# What the cursor channel is expected to bring

A record of the cursor channel is stored unless it lies behind an expectation, which is set by
earlier records, by transfers and by holes. The expectation never runs ahead of the positions that
came up, with one exception: a record at the unset mark is dropped, but when a hole is asked for
at that moment, the mark is taken for the place where the channel stands, and the expectation goes
to the last position of all.

- `Reconciler.expected?`: the expectation.
- `Reconciler.Shifts`: what a moment does to it.
- `Blinded`: the expectation is due to the unset mark.
- `Reconciler.stored_iff_not_blinded`: a record ahead of everything that came up is stored, unless
  the expectation is due to the unset mark.
-/

namespace Logbook

open Rehearsal Script

/-! ## The expectation -/

/-- What the cursor channel of the current session is expected to bring. -/
def Reconciler.expected? (r : Reconciler) : Option Position :=
  r.journal.current.bind (·.nextCursor)

/-- A record at the unset mark makes the reconciler ask for a hole. -/
def Moment.blinds (m : Moment) : Bool :=
  match m.stimulus with
  | .event _ ⟨_, .cursor x _⟩ => !decide x.position.IsSet && m.request?.isSome
  | _ => false

/-- The expectation goes back to a record at the unset mark. -/
def Blinded : List Moment → Prop
  | [] => False
  | m :: past => m.blinds ∨ m.after.next.expected? = m.before.expected? ∧ Blinded past

/-- Without a request no moment blinds. -/
theorem Moment.blinds_of_none {m : Moment} (h : requestsOf m.after.sent = []) :
    m.blinds = false := by
  unfold Moment.blinds
  split
  · rw [Moment.request?, h]
    exact Bool.and_false _
  · rfl

namespace Reconciler

variable {r q : Reconciler} {s t : Session} {u : Stimulus} {past : List Moment} {a : Reaction}
  {x : Record} {info : SessionInfo}

theorem expected?_of_current (hs : r.journal.current = some s) :
    r.expected? = s.nextCursor := by
  rw [expected?, hs]
  rfl

/-- What a moment does to the expectation. -/
inductive Shifts (m : Moment) : Prop
  /-- It stays. -/
  | keeps (h : m.after.next.expected? = m.before.expected?) (hclear : m.blinds = false)
  /-- It is forgotten. -/
  | forgets (h : m.after.next.expected? = none) (hclear : m.blinds = false)
  /-- It goes past a position that comes up. -/
  | passes {p : Position} (hp : p ∈ m.stimulus.positions) (hset : p.IsSet)
      (h : m.after.next.expected? = some p.next) (hclear : m.blinds = false)
  /-- It goes to the last position. -/
  | blinds (h : m.after.next.expected? = some .last) (hblinds : m.blinds = true)

/-- A record of the cursor channel moves the expectation past itself, or not at all. -/
theorem shifts_of_received {now : Instant} (hs : r.journal.current = some s)
    (ht : a.next.journal.current = some t) (hnext : t.nextCursor = (s.receiveCursor x).nextCursor)
    (hsent : requestsOf a.sent = []) :
    Shifts ⟨r, .event now ⟨r.device, .cursor x info⟩, a⟩ := by
  have hclear := Moment.blinds_of_none
    (m := ⟨r, .event now ⟨r.device, .cursor x info⟩, a⟩) hsent
  have hexpected := expected?_of_current ht
  rw [hnext, Session.nextCursor_receiveCursor] at hexpected
  by_cases haccepts : s.Accepts x
  · rw [if_pos haccepts] at hexpected
    exact .passes (List.mem_singleton_self _) haccepts.1 hexpected hclear
  · rw [if_neg haccepts, ← expected?_of_current hs] at hexpected
    exact .keeps hexpected hclear

/-- Opening a session keeps the expectation or forgets it. -/
theorem expected?_opened {last : Position} {now : Instant}
    (hs : (r.opened info last now).journal.current = some s) :
    s.nextCursor = r.expected? ∨ s.nextCursor = none := by
  rcases r.opened_cases info last now with ⟨-, heq⟩ | ⟨-, hcurrent⟩
  · rw [heq] at hs
    exact .inl (expected?_of_current (r := r) hs).symm
  · rw [hcurrent] at hs
    cases hs
    exact .inr (Session.nextCursor_anchor ..)

/-- **The expectation goes past positions that come up, or it is blinded.** -/
theorem Step.shifts (h : Step r u a.next a.sent) : Shifts ⟨r, u, a⟩ := by
  obtain ⟨q, sent, notes⟩ := a
  have hquiet (hsent : requestsOf sent = []) :
      Moment.blinds ⟨r, u, ⟨q, sent, notes⟩⟩ = false := Moment.blinds_of_none hsent
  have hkept {s t : Session} (hs : r.journal.current = some s) (ht : q.journal.current = some t)
      (hnext : t.nextCursor = s.nextCursor) : q.expected? = r.expected? := by
    rw [expected?_of_current hs, expected?_of_current ht, hnext]
  have hmap {f : Session → Session} (hf : ∀ s, (f s).nextCursor = s.nextCursor) :
      (r.journal.update f).current.bind (·.nextCursor) = r.expected? := by
    unfold Journal.update expected?
    cases r.journal.current with
    | none => rfl
    | some s => exact hf s
  cases h with
  | ignored | noticed | left => exact .keeps rfl (hquiet rfl)
  | disconnected =>
    refine .forgets ?_ (hquiet rfl)
    show (r.journal.current.map Session.forgetCursor).bind _ = none
    cases r.journal.current <;> rfl
  | ticked hs => exact shifts_of_received hs rfl rfl rfl
  | stalled hs => exact shifts_of_received hs rfl rfl (requestsOf_announce ..)
  | settled hs _ _ hclear =>
    cases hclear <;> exact shifts_of_received hs rfl rfl (requestsOf_announce ..)
  | @repaired _ x =>
    -- the hole is asked for with the channel standing at `x`, wherever that is
    by_cases hset : x.position.IsSet
    · refine .passes (List.mem_singleton_self _) hset rfl ?_
      show (!decide x.position.IsSet && _) = false
      rw [decide_eq_true hset]
      rfl
    · refine .blinds ?_ ?_
      · show some x.position.next = _
        rw [show x.position = .unset from Decidable.not_not.mp hset]
        rfl
      · show (!decide x.position.IsSet && _) = true
        rw [decide_eq_false hset]
        rfl
  | delivered hs | fetched hs =>
    exact .keeps (hkept hs rfl (Session.nextCursor_receiveBulk ..))
      (hquiet (requestsOf_announce ..))
  | filling hs | late hs =>
    exact .keeps (hkept hs rfl (Session.nextCursor_receiveBulk ..)) (hquiet rfl)
  | filled hs | added hs =>
    exact .keeps (hkept hs rfl (Session.nextCursor_receiveBulk ..))
      (hquiet (requestsOf_refreshSent ..))
  | unneeded hs =>
    rcases expected?_opened hs with hnext | hnext
    · exact .keeps hnext rfl
    · exact .forgets hnext rfl
  | covered _ hneed | asked _ hneed =>
    obtain ⟨-, hlast, hset⟩ := ordered_of_needed? hneed
    refine .passes (List.mem_cons_of_mem _ (List.mem_singleton_self _)) hset ?_ rfl
    rw [← hlast]
    rfl
  | cancelled hs => exact .keeps (hkept hs rfl rfl) rfl
  | dropped => exact .keeps (hmap Session.nextCursor_finish) rfl
  | reset => exact .forgets rfl rfl

/-! ## Runs -/

/-- The expectation is either blinded or past a position that came up. -/
theorem expected?_after_run {r₀ : Reconciler} (h : Run r₀ past r) (hstart : r₀.expected? = none) :
    (∀ e, r.expected? = some e →
        Blinded past ∨ ∃ p ∈ received past, p.IsSet ∧ e = p.next) ∧
      (Blinded past → r.expected? = some .last) := by
  refine h.invariant (I := fun past r => (∀ e, r.expected? = some e →
    Blinded past ∨ ∃ p ∈ received past, p.IsSet ∧ e = p.next) ∧
      (Blinded past → r.expected? = some .last)) ?_ ?_
  · refine ⟨?_, False.elim⟩
    intro e he
    rw [hstart] at he
    cases he
  · rintro past r u a ⟨hreached, hblinded⟩ hstep
    constructor
    · intro e he
      cases hstep.shifts with
      | keeps hkept =>
        have hkept : a.next.expected? = r.expected? := hkept
        rw [hkept] at he
        rcases hreached e he with hb | ⟨p, hp, hset, rfl⟩
        · exact .inl (.inr ⟨hkept, hb⟩)
        · exact .inr ⟨p, mem_received_cons.mpr (.inr hp), hset, rfl⟩
      | forgets hnone =>
        have hnone : a.next.expected? = none := hnone
        rw [hnone] at he
        cases he
      | @passes p hp hset hnext =>
        have hnext : a.next.expected? = some p.next := hnext
        rw [hnext] at he
        cases he
        exact .inr ⟨p, mem_received_cons.mpr (.inl hp), hset, rfl⟩
      | blinds _ hb => exact .inl (.inl hb)
    · rintro (hb | ⟨hkept, hb⟩)
      -- the last moment blinds, which is the only way to that position
      · cases hstep.shifts with
        | keeps _ hclear | forgets _ hclear | passes _ _ _ hclear =>
          rw [hclear] at hb
          cases hb
        | blinds hlast => exact hlast
      · exact hkept.trans (hblinded hb)

/-- What the current session holds came up in the past. -/
theorem received_of_holds {r₀ : Reconciler} (h : Run r₀ past r)
    (hstart : r₀.journal.current = none) {p : Position} (hp : r.holds p) : p ∈ received past := by
  revert p
  refine h.invariant (I := fun past r => ∀ {p}, r.holds p → p ∈ received past) ?_ ?_
  · intro p hp
    rw [holds, hstart] at hp
    cases hp
  · intro past r u a ih hstep p hp
    obtain ⟨t, ht, hpt⟩ := (Option.any_eq_true _ _).mp hp
    rcases hstep.holds ht (of_decide_eq_true hpt) with hheld | hcame
    · exact mem_received_cons.mpr (.inr (ih hheld))
    · exact mem_received_cons.mpr (.inl hcame)

/-! ## Records ahead of everything -/

/-- While a transfer is running or the log is complete, a record of the cursor channel is taken
into the current session. -/
theorem Step.taken {now : Instant} {sent : List Outbound} (hs : r.journal.current = some s)
    (hid : s.id = info.id) (hst : r.state.isInProgress ∨ r.state.isComplete)
    (h : Step r (.event now ⟨r.device, .cursor x info⟩) q sent) :
    ∃ t, q.journal.current = some t ∧ t.store = (s.receiveCursor x).store ∧ t.id = info.id := by
  have htaken {s' t : Session} (hs' : r.journal.current = some s')
      (ht : q.journal.current = some t) (hstore : t.store = (s'.receiveCursor x).store)
      (hid' : t.id = s'.id) :
      ∃ t, q.journal.current = some t ∧ t.store = (s.receiveCursor x).store ∧ t.id = info.id := by
    obtain rfl : s' = s := Option.some_inj.mp (hs'.symm.trans hs)
    exact ⟨t, ht, hstore, hid'.trans hid⟩
  cases h with
  | ignored he =>
    have he : r.state = .transferNeeded := he
    rw [he] at hst
    rcases hst with hst | hst <;> cases hst
  | noticed he =>
    rw [he] at hst
    rcases hst with hst | hst <;> cases hst
  | left _ hout =>
    rw [isIn_iff.mpr ⟨s, hs, hid⟩] at hout
    cases hout
  | ticked hs' | stalled hs' => exact htaken hs' rfl rfl (Session.id_receiveCursor ..)
  | settled hs' _ _ hclear | repaired hs' _ _ hclear =>
    cases hclear <;> exact htaken hs' rfl rfl (Session.id_receiveCursor ..)

/-- A record ahead of everything that came up is behind the expectation only if that is blinded. -/
theorem accepts_iff_not_blinded {r₀ : Reconciler} (h : Run r₀ past r)
    (hstart : r₀.expected? = none) (hs : r.journal.current = some s) (hset : x.position.IsSet)
    (hahead : ∀ p ∈ received past, p.IsSet → p < x.position) :
    s.Accepts x ↔ (Blinded past → x.position = .last) := by
  obtain ⟨hreached, hblinded⟩ := expected?_after_run h hstart
  rw [expected?_of_current hs] at hreached hblinded
  have hle := Position.isSet_iff.mp hset
  unfold Session.Accepts Session.expectedCursor
  constructor
  · rintro ⟨-, hnext⟩ hb
    rw [hblinded hb] at hnext
    exact Position.ext (Nat.le_antisymm hle hnext)
  · intro hlast
    refine ⟨hset, ?_⟩
    cases he : s.nextCursor with
    | none => exact Nat.le_refl _
    | some e =>
      rcases hreached e he with hb | ⟨p, hp, hpset, rfl⟩
      · have hlast := hlast hb
        rw [hblinded hb] at he
        cases he
        rw [hlast]
        exact Nat.le_refl _
      · have hlt := Position.lt_iff.mp (hahead p hp hpset)
        show p.next ≤ x.position
        rw [Position.le_iff, Position.toNat_next]
        omega

/-- **A record ahead of everything that came up is stored, unless the expectation goes back to a
record at the unset mark**; then only the last position of all is stored. -/
theorem stored_iff_not_blinded {device : DeviceId} {policy : Policy}
    (h : Run (begin device policy) past r) (hst : r.state.isInProgress ∨ r.state.isComplete)
    (hin : r.journal.isIn info.id) (hset : x.position.IsSet)
    (hahead : ∀ p ∈ received past, p.IsSet → p < x.position) (now : Instant) :
    ∃ a s, r.handle now ⟨r.device, .cursor x info⟩ = .ok a ∧ a.next.journal.current = some s ∧
      s.id = info.id ∧
      (s.store.get? x.position = some x ↔ (Blinded past → x.position = .last)) := by
  obtain ⟨s, hs, hid⟩ := isIn_iff.mp hin
  obtain ⟨a, ha, hstep⟩ := exists_react r now (.cursor x info)
  obtain ⟨t, ht, hstore, htid⟩ := hstep.taken hs hid hst
  -- the position is new to the session, for all that it holds came up before
  have hnew : x.position ∉ s.store := by
    intro hheld
    have hreceived := received_of_holds h rfl ((holds_of_current hs).mpr hheld)
    exact Nat.lt_irrefl _ (hahead _ hreceived hset)
  refine ⟨a, t, ha, ht, htid, ?_⟩
  rw [← accepts_iff_not_blinded h rfl hs hset hahead, hstore, Session.store_receiveCursor]
  by_cases haccepts : s.Accepts x
  · rw [if_pos haccepts, Store.get?_insert, if_pos rfl]
    exact iff_of_true rfl haccepts
  · rw [if_neg haccepts, Store.get?_eq_none_iff.mpr hnew]
    exact iff_of_false (by simp) haccepts

/-- A transfer of one position. -/
def oneRecord : List Inbound :=
  [Device.standard.start (pos 0) (pos 0), Device.standard.bulk (pos 0)]

/-- After it a record ahead of everything comes. -/
theorem stored_iff_after_one_record :
    ∃ past r a s, Run (begin Device.standard.id .standard) past r ∧
      (∀ p ∈ received past, p.IsSet → p < pos 1) ∧
      r.handle now (Device.standard.cursor (pos 1)) = .ok a ∧ a.next.journal.current = some s ∧
      (s.store.get? (pos 1) = some (Device.record (pos 1)) ↔ (Blinded past → pos 1 = .last)) := by
  have hrun := run_rehearse .standard oneRecord
  have hin : (rehearse .standard oneRecord).2.journal.isIn Device.standard.info.id := by decide
  have hahead : ∀ p ∈ received (rehearse .standard oneRecord).1, p.IsSet →
      p < (Device.record (pos 1)).position := by decide
  obtain ⟨a, s, ha, hs, -, hstored⟩ :=
    stored_iff_not_blinded hrun (.inr (by decide)) hin (by decide) hahead now
  exact ⟨_, _, a, s, hrun, hahead, ha, hs, hstored⟩

/-- A hole is given up, and is asked for again when a record at the unset mark comes. -/
def unsetMark : List Inbound :=
  [Device.standard.start (pos 0) (pos 0), Device.standard.bulk (pos 0),
    Device.standard.cursor (pos 3), Device.standard.cancel, Device.standard.cursor .unset]

/-- Then the record at 4 is lost, although it is ahead of everything that came up. -/
theorem loses_a_record_ahead :
    ¬ ∀ (past : List Moment) (r : Reconciler) (x : Record) (info : SessionInfo) (now : Instant)
        (a : Reaction),
      Run (begin Device.standard.id .standard) past r →
        r.state.isInProgress ∨ r.state.isComplete → r.journal.isIn info.id → x.position.IsSet →
          (∀ p ∈ received past, p.IsSet → p < x.position) →
            r.handle now ⟨r.device, .cursor x info⟩ = .ok a → a.next.holds x.position := by
  intro hall
  have hrun := run_rehearse .standard unsetMark
  obtain ⟨a, ha, -⟩ := exists_react (rehearse .standard unsetMark).2 now
    (.cursor (Device.record (pos 4)) Device.standard.info)
  have hlost : a.next.holds (pos 4) = false :=
    Bool.not_eq_true' _ ▸ of_handle (P := fun b => !b.next.holds (pos 4)) ha (by decide)
  have hheld := hall _ _ _ _ _ a hrun (.inr (by decide)) (by decide) (by decide) (by decide) ha
  rw [show (Device.record (pos 4)).position = pos 4 from rfl, hlost] at hheld
  cases hheld

end Reconciler

end Logbook
