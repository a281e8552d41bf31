import Logbook.Proofs.Journal
import Logbook.Proofs.Reconciler.Run

/-!
# The log loses nothing

Whatever happens to a reconciler, its journal stays, or its current session gets at most one
record, or a new session is opened behind it. From these three ways in which a journal goes on it
follows that only the loss of the whole journal ever takes something away.

- `Stimulus.Brings`: the record that comes up in what happens, and the session it is for.
- `Reconciler.Amends`: what can become of a journal; `Reconciler.Step.amends` says that every rule
  does one of these.
- `Reconciler.Amends.records`: a fact about all records of a journal is kept if it holds of the
  record that comes.
- `Reconciler.extends_unless_reset`: the log never loses, rewrites or reorders.
-/

namespace Logbook

open Rehearsal Script

/-- The record comes up in what happens, and it is for a session: the cursor channel says for which
one, and the bulk channel leaves that open. -/
def Stimulus.Brings : Stimulus → SessionId → Record → Prop
  | .event _ ⟨_, .bulk y⟩, _, x => y = x
  | .event _ ⟨_, .cursor y info⟩, id, x => y = x ∧ info.id = id
  | _, _, _ => False

namespace Reconciler

variable {r₀ r q : Reconciler} {j k : Journal} {s : Session} {u : Stimulus} {past : List Moment}
  {sent : List Outbound}

/-- What can become of a journal. -/
inductive Amends (j : Journal) (u : Stimulus) : Journal → Prop
  /-- It stays. -/
  | keeps : Amends j u j
  /-- The current session goes on with the records that it has. -/
  | proceeds {s t : Session} (hs : j.current = some s) (hid : t.id = s.id)
      (hstore : t.store = s.store) : Amends j u { j with current := some t }
  /-- The current session gets a record. -/
  | stores {s t : Session} {x : Record} (hs : j.current = some s) (hid : t.id = s.id)
      (hx : u.Brings s.id x) (hset : x.position.IsSet) (hstore : t.store = s.store.insert x) :
      Amends j u { j with current := some t }
  /-- A session without records is opened. -/
  | opens {t : Session} (hnew : j.isIn t.id = false) (hstore : t.store = .empty) :
      Amends j u { j with closed := j.sessions, current := some t }
  /-- All sessions are dropped. -/
  | clears (hu : u = .reset) : Amends j u j.clear

/-! ## What the rules do to the journal -/

theorem amends_of_cursor {t : Session} {now : Instant} {x : Record} {info : SessionInfo}
    (hs : r.journal.current = some s) (hid : s.id = info.id) (htid : t.id = s.id)
    (h : t.store = (s.receiveCursor x).store) :
    Amends r.journal (.event now ⟨r.device, .cursor x info⟩)
      { r.journal with current := some t } := by
  rw [Session.store_receiveCursor] at h
  split at h
  · next haccepts => exact .stores hs htid ⟨rfl, hid.symm⟩ haccepts.1 h
  · exact .proceeds hs htid h

theorem amends_of_bulk {t : Session} {now : Instant} {x : Record}
    (hs : r.journal.current = some s) (htid : t.id = s.id)
    (h : t.store = (s.receiveBulk x).store) :
    Amends r.journal (.event now ⟨r.device, .bulk x⟩) { r.journal with current := some t } := by
  rw [Session.store_receiveBulk] at h
  split at h
  · next hset => exact .stores hs htid rfl hset h
  · exact .proceeds hs htid h

theorem amends_of_opened {t : Session} {info : SessionInfo} {last : Position} {now : Instant}
    (hs : (r.opened info last now).journal.current = some s) (htid : t.id = s.id)
    (h : t.store = s.store) :
    Amends r.journal u { (r.opened info last now).journal with current := some t } := by
  have hjournal : (r.opened info last now).journal =
      r.journal.ensure info last now.notBeforeEpoch := rfl
  rw [hjournal] at hs ⊢
  cases hin : r.journal.isIn info.id with
  | true =>
    rw [Journal.ensure_of_isIn hin] at hs ⊢
    exact .proceeds hs htid h
  | false =>
    rw [Journal.ensure_of_not_isIn hin] at hs ⊢
    cases hs
    have hid : t.id = info.id := by
      rw [htid, Session.id, Session.info_anchor]
      rfl
    rw [Session.store_anchor] at h
    exact .opens (hid ▸ hin) h

theorem amends_of_update {f : Session → Session} (hid : ∀ s, (f s).id = s.id)
    (hstore : ∀ s, (f s).store = s.store) (j : Journal) : Amends j u (j.update f) := by
  unfold Journal.update
  cases hs : j.current with
  | none =>
    rw [Option.map_none, ← hs]
    exact .keeps
  | some s => exact .proceeds hs (hid s) (hstore s)

/-- **Every rule keeps the journal, adds a record to its current session, opens a session, or
drops them all.** -/
theorem Step.amends (h : Step r u q sent) : Amends r.journal u q.journal := by
  cases h with
  | ignored | noticed | left => exact .keeps
  | disconnected => exact amends_of_update Session.id_forgetCursor Session.store_forgetCursor _
  | ticked hs hid | stalled hs hid =>
    exact amends_of_cursor hs hid (Session.id_receiveCursor ..) rfl
  | settled hs hid _ hclear | repaired hs hid _ hclear =>
    cases hclear <;> exact amends_of_cursor hs hid (Session.id_receiveCursor ..) rfl
  | delivered hs | fetched hs | filling hs | filled hs | added hs | late hs =>
    exact amends_of_bulk hs (Session.id_receiveBulk ..) rfl
  | unneeded hs | covered hs | asked hs => exact amends_of_opened hs rfl rfl
  | cancelled hs => exact .proceeds hs rfl rfl
  | dropped => exact amends_of_update Session.id_finish Session.store_finish _
  | reset => exact .clears rfl

theorem Step.sessions_of_reset (h : Step r .reset q sent) : q.journal.sessions = [] := by
  cases h
  rfl

/-! ## What goes on -/

/-- **Unless all sessions are dropped, the journal has all that it had.** -/
theorem Amends.extends (h : Amends j u k) (hu : u ≠ .reset) : j.Extends k := by
  cases h with
  | keeps => exact .refl j
  | proceeds hs hid hstore => exact .revised hs hid fun p hp => hstore ▸ hp
  | stores hs hid _ _ hstore =>
    refine .revised hs hid fun p hp => ?_
    rw [hstore]
    exact Store.mem_insert.mpr (.inr hp)
  | opens => exact .opened j _
  | clears hreset => exact absurd hreset hu

/-- A fact about all records of a journal, told with the sessions that they are in, holds
afterwards if it holds of the record that comes. -/
theorem Amends.records {P : SessionId → Record → Prop} (h : Amends j u k)
    (hold : ∀ s ∈ j.sessions, ∀ x ∈ s.store.records, P s.id x)
    (hnew : ∀ s x, j.current = some s → u.Brings s.id x → x.position.IsSet → P s.id x) :
    ∀ s ∈ k.sessions, ∀ x ∈ s.store.records, P s.id x := by
  have hconcat {ss : List Session} {t : Session} (hss : ∀ s ∈ ss, s ∈ j.sessions)
      (ht : ∀ x ∈ t.store.records, P t.id x) : ∀ s ∈ ss ++ [t], ∀ x ∈ s.store.records, P s.id x := by
    intro s hs x hx
    rcases List.mem_append.mp hs with hs | hs
    · exact hold s (hss s hs) x hx
    · obtain rfl := List.mem_singleton.mp hs
      exact ht x hx
  have hclosed (s : Session) (hs : s ∈ j.closed) : s ∈ j.sessions := List.mem_append_left _ hs
  cases h with
  | keeps => exact hold
  | @proceeds s t hs hid hstore =>
    refine hconcat hclosed fun x hx => ?_
    rw [hid]
    rw [hstore] at hx
    exact hold s (Journal.mem_sessions_of_current hs) x hx
  | @stores s t x hs hid hbrings hset hstore =>
    refine hconcat hclosed fun y hy => ?_
    rw [hid]
    rw [hstore] at hy
    rcases Store.mem_records_insert hy with rfl | hy
    · exact hnew s y hs hbrings hset
    · exact hold s (Journal.mem_sessions_of_current hs) y hy
  | opens _ hstore =>
    refine hconcat (fun _ hs => hs) fun x hx => ?_
    rw [hstore] at hx
    cases hx
  | clears =>
    intro s hs
    cases hs

/-- The current session stays the last one. -/
theorem Amends.last (h : Amends j u k) (hlast : j.current = j.sessions.getLast?) :
    k.current = k.sessions.getLast? := by
  cases h with
  | keeps => exact hlast
  | proceeds | stores | opens => exact (List.getLast?_concat ..).symm
  | clears => rfl

/-- Sessions in a row keep different ids, for a session is opened only behind another one. -/
theorem Amends.apart (h : Amends j u k) (hlast : j.current = j.sessions.getLast?)
    (hapart : j.sessions.IsChain (·.id ≠ ·.id)) : k.sessions.IsChain (·.id ≠ ·.id) := by
  -- a session that goes on has the id that it had
  have hrevised {s t : Session} (hs : j.current = some s) (hid : t.id = s.id) :
      (j.closed ++ [t]).IsChain (·.id ≠ ·.id) := by
    rw [Journal.sessions_of_current hs, Journal.isChain_ids, List.map_append] at hapart
    rw [Journal.isChain_ids, List.map_append, List.map_singleton, hid]
    exact hapart
  cases h with
  | keeps => exact hapart
  | proceeds hs hid | stores hs hid => exact hrevised hs hid
  | @opens t hnew =>
    refine hapart.append (List.isChain_singleton t) ?_
    intro s hs t' ht'
    obtain rfl := Option.some_inj.mp ht'
    intro hsame
    rw [← hlast] at hs
    rw [isIn_iff.mpr ⟨s, hs, hsame⟩] at hnew
    cases hnew
  | clears => exact List.isChain_nil

/-! ## Runs -/

/-- After every run the journal is well kept. -/
theorem Run.wellKept (h : Run r₀ past r) (hstart : r₀.journal.sessions = [])
    (hcurrent : r₀.journal.current = none) : r.journal.WellKept := by
  have hkept : r.journal.current = r.journal.sessions.getLast? ∧
      r.journal.sessions.IsChain (·.id ≠ ·.id) ∧
      ∀ s ∈ r.journal.sessions, ∀ x ∈ s.store.records, x.position.IsSet := by
    refine h.invariant (I := fun _ r => r.journal.current = r.journal.sessions.getLast? ∧
      r.journal.sessions.IsChain (·.id ≠ ·.id) ∧
      ∀ s ∈ r.journal.sessions, ∀ x ∈ s.store.records, x.position.IsSet) ?_ ?_
    · rw [hstart, hcurrent]
      exact ⟨rfl, List.isChain_nil, fun s hs => by cases hs⟩
    · rintro past r u a ⟨hlast, hapart, hset⟩ hstep
      have hamends := hstep.amends
      exact ⟨hamends.last hlast, hamends.apart hlast hapart,
        hamends.records (P := fun _ x => x.position.IsSet) hset fun _ _ _ _ hx => hx⟩
  obtain ⟨hlast, hapart, hset⟩ := hkept
  refine ⟨hlast, ?_, r.journal.exists_told, hapart⟩
  intro s hs p x hx
  obtain ⟨hmem, rfl⟩ := Store.get?_eq_some_iff.mp hx
  exact ⟨rfl, hset s hs x hmem⟩

/-- **The log never loses, rewrites or reorders.** Whatever happens, the sessions that are not the
last one stay as they are, every position that is held stays held, at most one session is opened,
and the history tells session after session in the order of the positions. Only a reset takes
anything away, and it takes all. -/
theorem extends_unless_reset {device : DeviceId} {policy : Policy}
    (h : Run (begin device policy) past r) (u : Stimulus) :
    (r.journal.Extends (r.after u).journal ∨ u = .reset ∧ (r.after u).journal.sessions = []) ∧
      (r.after u).journal.WellKept := by
  obtain ⟨past', hafter⟩ := h.exists_after u
  refine ⟨?_, hafter.wellKept rfl rfl⟩
  rcases r.after_cases u with hsame | ⟨sent, hstep⟩
  · rw [hsame]
    exact .inl (.refl _)
  · by_cases hu : u = .reset
    · subst hu
      exact .inr ⟨rfl, hstep.sessions_of_reset⟩
    · exact .inl (hstep.amends.extends hu)

/-- The device restarts after its first record, and a second session is opened behind the first. -/
theorem extends_at_restart :
    ∃ past r u, Run (begin Device.standard.id .standard) past r ∧
      r.journal.sessions.length = 1 ∧ (r.after u).journal.sessions.length = 2 ∧
      (r.journal.Extends (r.after u).journal ∨ u = .reset ∧ (r.after u).journal.sessions = []) ∧
      (r.after u).journal.WellKept := by
  have hrun := run_rehearse .standard
    [Device.standard.start (pos 0) (pos 0), Device.standard.bulk (pos 0)]
  have hkept := extends_unless_reset hrun
    (.event now ((Device.standard.inSession 2).start (pos 0) (pos 1)))
  exact ⟨_, _, _, hrun, by decide, by decide, hkept⟩

end Reconciler

end Logbook
