import Logbook.Proofs.Journal
import Logbook.Proofs.Session.Operations
import Logbook.Rehearsal.Script

/-!
# When records were taken

A session is placed in time when it is opened: the device's latest position is taken at that time,
and the others as many periods before and after. Times are 64-bit numbers, and a product, difference
or sum that would leave them stops at their end. This never turns the order of two positions around,
and it changes no distance between two times unless one of the numbers on the way is at the end.

- `Instant.Fits`: a number of milliseconds is an instant.
- `Session.PlacedBy`: the positions of a session are taken at given times, which keep their order
  and their distance.
- `Journal.Operation`, `Journal.performAll`: what can be done to a journal.
- `Journal.Continues`: the sessions of a journal go on, each in its place; they do, unless all of
  them are dropped.
- `Journal.placed_once_for_all`: a session that is opened is placed in time, and stays so.
-/

namespace Logbook

open Rehearsal Script

/-! ## Instants -/

namespace Instant

/-- The number of milliseconds is that of an instant. -/
def Fits (t : ℤ) : Prop := -9223372036854775808 ≤ t ∧ t ≤ 9223372036854775807

/-- A number that fits is not changed. -/
theorem millis_clamp_of_fits {t : ℤ} (h : Fits t) : (clamp t).millis = t := by
  obtain ⟨hge, hle⟩ := h
  show max _ (min t _) = t
  omega

/-- The order of two numbers is never turned around. -/
theorem millis_clamp_mono {t u : ℤ} (h : t ≤ u) : (clamp t).millis ≤ (clamp u).millis := by
  show max _ (min t _) ≤ max _ (min u _)
  omega

end Instant

/-! ## Sessions in time -/

namespace Session

variable {s t : Session} {latest p q : Position} {now : Instant}

/-- How long after position zero a position is taken, if the product does not stop at the end. -/
def exactElapsed (s : Session) (p : Position) : ℤ := p.toNat * s.info.period.millis

theorem elapsed_eq (s : Session) (p : Position) :
    s.elapsed p = min (s.exactElapsed p) 9223372036854775807 := rfl

theorem elapsed_nonneg (s : Session) (p : Position) : 0 ≤ s.elapsed p := by
  have hproduct : 0 ≤ s.exactElapsed p :=
    Int.mul_nonneg (Int.natCast_nonneg _) (Int.natCast_nonneg _)
  rw [elapsed_eq]
  omega

theorem elapsed_of_fits (h : Instant.Fits (s.exactElapsed p)) : s.elapsed p = s.exactElapsed p := by
  rw [elapsed_eq, Int.min_eq_left h.2]

theorem elapsed_mono (s : Session) (h : p ≤ q) : s.elapsed p ≤ s.elapsed q := by
  have hproduct : s.exactElapsed p ≤ s.exactElapsed q :=
    Int.mul_le_mul_of_nonneg_right (Int.ofNat_le.mpr h) (Int.natCast_nonneg _)
  rw [elapsed_eq, elapsed_eq]
  omega

/-- The positions of the session are taken at these times, the latest one `now`. -/
structure PlacedBy (s : Session) (latest : Position) (now : Instant) (time : Position → Instant) :
    Prop where
  timeOf? : ∀ p, s.timeOf? p = some (time p)
  anchored : time latest = now
  /-- No position is taken before a lower one, also not the unset mark. -/
  monotone : ∀ p q, p ≤ q → (time p).millis ≤ (time q).millis
  /-- Between two positions there are their periods, if nothing stops at the end. -/
  spaced : ∀ p q, Instant.Fits (s.exactElapsed latest) →
    Instant.Fits (s.exactElapsed p) → Instant.Fits (s.exactElapsed q) →
    Instant.Fits (now.millis - s.exactElapsed latest + s.exactElapsed p) →
    Instant.Fits (now.millis - s.exactElapsed latest + s.exactElapsed q) →
    (time q).millis - (time p).millis = ((q.toNat : ℤ) - p.toNat) * s.info.period.millis

/-- No position is taken before a lower one, wherever the session starts. -/
theorem millis_mono {a b : Instant} (hpq : p ≤ q) (ha : s.timeOf? p = some a)
    (hb : s.timeOf? q = some b) : a.millis ≤ b.millis := by
  obtain ⟨start, hstart, rfl⟩ := Option.map_eq_some_iff.mp ha
  obtain ⟨start', hstart', rfl⟩ := Option.map_eq_some_iff.mp hb
  obtain rfl : start = start' := Option.some_inj.mp (hstart.symm.trans hstart')
  exact Instant.millis_clamp_mono (Int.add_le_add_left (s.elapsed_mono hpq) _)

/-- A session is placed by its start, if that is as far before `now` as the latest position is
behind it. -/
theorem placedBy_of_start (hnow : 0 ≤ now.millis)
    (hstart : s.start = some (.clamp (now.millis - s.elapsed latest))) :
    s.PlacedBy latest now fun p => .clamp (now.millis - s.elapsed latest + s.elapsed p) := by
  have helapsed := s.elapsed_nonneg latest
  have hcapped : s.elapsed latest ≤ 9223372036854775807 := Int.min_le_right _ _
  have hle := now.le_max
  -- the latest position is never so late that the start would stop at the lower end
  have hfits : Instant.Fits (now.millis - s.elapsed latest) := by
    unfold Instant.Fits
    omega
  have htime (p : Position) : s.timeOf? p =
      some (.clamp (now.millis - s.elapsed latest + s.elapsed p)) := by
    unfold Session.timeOf?
    rw [hstart, Option.map_some, Instant.millis_clamp_of_fits hfits]
  constructor
  case timeOf? => exact htime
  case anchored => rw [Int.sub_add_cancel, Instant.clamp_millis]
  case monotone => exact fun p q hpq => millis_mono hpq (htime p) (htime q)
  case spaced =>
    intro p q hlatest hp hq htime htime'
    rw [elapsed_of_fits hlatest, elapsed_of_fits hp, elapsed_of_fits hq,
      Instant.millis_clamp_of_fits htime, Instant.millis_clamp_of_fits htime', Int.sub_mul]
    unfold exactElapsed
    omega

/-- A session is placed when it is opened. -/
theorem start_anchor_begin (info : SessionInfo) (tolerance : Tolerance) (hset : latest.IsSet) :
    ((begin info tolerance).anchor latest now).start =
      some (.clamp (now.millis - ((begin info tolerance).anchor latest now).elapsed latest)) := by
  have helapsed : ((begin info tolerance).anchor latest now).elapsed latest =
      (begin info tolerance).elapsed latest := by
    unfold elapsed
    rw [info_anchor]
  have hopen : ¬ ((begin info tolerance).start.isSome || !decide latest.IsSet) = true := by
    rw [decide_eq_true hset]
    exact Bool.false_ne_true
  rw [helapsed]
  unfold anchor
  rw [if_neg hopen]

/-- A session that goes on stays where it was placed. -/
theorem PlacedBy.start_eq {time : Position → Instant} (h : s.PlacedBy latest now time)
    (hst : s.Continues t) : t.start = s.start := by
  refine hst.start ?_
  obtain ⟨start, hstart, -⟩ := Option.map_eq_some_iff.mp (h.timeOf? latest)
  rw [hstart]
  rfl

theorem PlacedBy.continues {time : Position → Instant} (h : s.PlacedBy latest now time)
    (hst : s.Continues t) : t.PlacedBy latest now time := by
  have hexact : t.exactElapsed = s.exactElapsed := by
    funext p
    unfold exactElapsed
    rw [hst.info]
  refine ⟨fun p => ?_, h.anchored, h.monotone, ?_⟩
  · rw [← h.timeOf? p, Session.timeOf?, Session.timeOf?, h.start_eq hst]
    simp only [elapsed_eq, hexact]
  · rw [hexact, hst.info]
    exact h.spaced

/-! ## Histories in time -/

/-- The records are told in the order in which they were taken. -/
def InTime (ys : List Placed) : Prop :=
  ys.Pairwise fun x y => ∀ t ∈ x.time, ∀ u ∈ y.time, t.millis ≤ u.millis

/-- What tells the records of a session tells them in the order in which they were taken. -/
theorem Tells.inTime {ys : List Placed} (h : s.Tells ys) : InTime ys := by
  refine h.ascending.imp_of_mem fun {x y} hx hy hlt a ha b hb => ?_
  obtain ⟨-, -, hxtime⟩ := (h.mem_iff x).mp hx
  obtain ⟨-, -, hytime⟩ := (h.mem_iff y).mp hy
  rw [hxtime] at ha
  rw [hytime] at hb
  exact millis_mono (Nat.le_of_lt hlt) ha hb

end Session

/-! ## Journals that are worked on -/

namespace Journal

/-- What can be done to a journal. -/
inductive Operation
  | ensure (info : SessionInfo) (latest : Position) (now : Instant)
  | prepare (first last : Position) (info : SessionInfo) (now : Instant)
  | current (o : Session.Operation)
  | clear
deriving DecidableEq

variable {j k l : Journal} {s t : Session} {o : Operation} {os : List Operation}
  {info : SessionInfo} {latest : Position} {now : Instant}

/-- The journal after an operation. What is done to the current session changes nothing if there is
none. -/
def perform (j : Journal) : Operation → Except RequestError Journal
  | .ensure info latest now => .ok (j.ensure info latest now)
  | .prepare first last info now => .ok (j.prepare first last info now).1
  | .current o => j.request fun s => s.perform o
  | .clear => .ok j.clear

/-- The journal after several operations. -/
def performAll (j : Journal) (os : List Operation) : Except RequestError Journal :=
  os.foldlM perform j

/-- Without a session nothing is changed, and otherwise the current one. -/
theorem cases_of_request {f : Session → Except RequestError Session} (h : j.request f = .ok k) :
    k = j ∨ ∃ s t, j.current = some s ∧ f s = .ok t ∧ k = { j with current := some t } := by
  unfold request at h
  cases hs : j.current with
  | none =>
    rw [hs] at h
    cases h
    exact .inl rfl
  | some s =>
    rw [hs] at h
    cases ht : f s with
    | error e =>
      dsimp only at h
      rw [ht] at h
      cases h
    | ok t =>
      dsimp only at h
      rw [ht] at h
      cases h
      exact .inr ⟨s, t, rfl, ht, rfl⟩

/-- The first of several operations was possible, and then the others. -/
theorem exists_of_performAll_cons (h : j.performAll (o :: os) = .ok k) :
    ∃ l, j.perform o = .ok l ∧ l.performAll os = .ok k := by
  unfold performAll at h
  rw [List.foldlM_cons] at h
  cases hl : j.perform o with
  | error e =>
    rw [hl] at h
    cases h
  | ok l =>
    rw [hl] at h
    exact ⟨l, rfl, h⟩

/-- The sessions of the journal `j` go on in the journal `k`, each in its place. -/
def Continues (j k : Journal) : Prop :=
  ∀ (i : ℕ) (s : Session), j.sessions[i]? = some s → ∃ t, k.sessions[i]? = some t ∧ s.Continues t

namespace Continues

theorem refl (j : Journal) : j.Continues j := fun _ s hs => ⟨s, hs, .refl s⟩

theorem trans (h : j.Continues k) (h' : k.Continues l) : j.Continues l := by
  intro i s hs
  obtain ⟨t, ht, hst⟩ := h i s hs
  obtain ⟨u, hu, htu⟩ := h' i t ht
  exact ⟨u, hu, hst.trans htu⟩

/-- The current session goes on. -/
theorem revised (hs : j.current = some s) (hst : s.Continues t) :
    j.Continues { j with current := some t } := by
  intro i u hu
  rw [sessions_of_current hs] at hu
  show ∃ v, (j.closed ++ [t])[i]? = some v ∧ u.Continues v
  rcases getElem?_concat_cases hu with hclosed | ⟨rfl, rfl⟩
  · obtain ⟨hi, -⟩ := List.getElem?_eq_some_iff.mp hclosed
    exact ⟨u, (List.getElem?_append_left hi).trans hclosed, .refl u⟩
  · exact ⟨t, List.getElem?_concat_length, hst⟩

/-- A session that is opened takes no other one's place. -/
theorem ensured (j : Journal) (info : SessionInfo) (latest : Position) (now : Instant) :
    j.Continues (j.ensure info latest now) := by
  cases hin : j.isIn info.id with
  | true =>
    rw [ensure_of_isIn hin]
    exact .refl j
  | false =>
    rw [ensure_of_not_isIn hin]
    intro i s hs
    obtain ⟨hi, -⟩ := List.getElem?_eq_some_iff.mp hs
    exact ⟨s, (List.getElem?_append_left hi).trans hs, .refl s⟩

end Continues

/-- Unless all sessions are dropped, they go on. -/
theorem continues_of_perform (ho : o ≠ .clear) (h : j.perform o = .ok k) : j.Continues k := by
  cases o with
  | ensure info latest now =>
    cases h
    exact .ensured j info latest now
  | prepare first last info now =>
    cases h
    exact .ensured j info last now
  | current o =>
    rcases cases_of_request h with rfl | ⟨s, t, hs, ht, rfl⟩
    · exact .refl _
    · exact .revised hs (Session.continues_of_perform ht)
  | clear => exact absurd rfl ho

/-- **Whatever is done to a journal, its sessions go on**, unless all of them are dropped. -/
theorem continues_of_performAll (hos : ∀ o ∈ os, o ≠ .clear) (h : j.performAll os = .ok k) :
    j.Continues k := by
  induction os generalizing j with
  | nil =>
    cases h
    exact .refl _
  | cons o os ih =>
    obtain ⟨ho, hos⟩ := List.forall_mem_cons.mp hos
    obtain ⟨l, hl, hrest⟩ := exists_of_performAll_cons h
    exact (continues_of_perform ho hl).trans (ih hos hrest)

/-! ## Sessions that are opened -/

/-- The session that is opened is placed by the latest position. -/
theorem exists_opened (hnew : j.isIn info.id = false) (hset : latest.IsSet)
    (hnow : 0 ≤ now.millis) :
    ∃ s time, (j.ensure info latest now).sessions = j.sessions ++ [s] ∧ s.info = info ∧
      s.PlacedBy latest now time := by
  rw [ensure_of_not_isIn hnew]
  exact ⟨_, _, rfl, Session.info_anchor .., Session.placedBy_of_start hnow
    (Session.start_anchor_begin info j.tolerance hset)⟩

/-- The history of any journal tells one session after another, each of them in time. -/
theorem exists_told_inTime (j : Journal) :
    ∃ parts, List.Forall₂ (fun s ys => s.Tells ys ∧ Session.InTime ys) j.sessions parts ∧
      j.history = parts.flatten := by
  obtain ⟨parts, htells, hhistory⟩ := j.exists_told
  exact ⟨parts, htells.imp fun _ _ hys => ⟨hys, hys.inTime⟩, hhistory⟩

/-- **A session is placed in time when it is opened, and stays so.** The latest position is taken
when the session is opened. No position is taken before a lower one, so that the records of every
session are told in time; and between two positions there are their periods, if nothing stops at the
end of what an instant can hold. Whatever is done to the journal then, the session is in its place
and starts when it did, unless all sessions are dropped. -/
theorem placed_once_for_all
    (hnew : j.isIn info.id = false) (hset : latest.IsSet) (hnow : 0 ≤ now.millis) :
    ∃ s time, (j.ensure info latest now).sessions = j.sessions ++ [s] ∧ s.info = info ∧
      s.PlacedBy latest now time ∧
      ∀ os k, (∀ o ∈ os, o ≠ .clear) → (j.ensure info latest now).performAll os = .ok k →
        (∃ t, k.sessions[j.sessions.length]? = some t ∧ t.info = info ∧ t.start = s.start ∧
          t.PlacedBy latest now time) ∧
        ∃ parts, List.Forall₂ (fun t ys => t.Tells ys ∧ Session.InTime ys) k.sessions parts ∧
          k.history = parts.flatten := by
  obtain ⟨s, time, hs, hinfo, hplaced⟩ := exists_opened hnew hset hnow
  refine ⟨s, time, hs, hinfo, hplaced, fun os k hos hk => ⟨?_, k.exists_told_inTime⟩⟩
  have hlast : (j.ensure info latest now).sessions[j.sessions.length]? = some s := by
    rw [hs, List.getElem?_concat_length]
  obtain ⟨t, ht, hst⟩ := continues_of_performAll hos hk _ s hlast
  exact ⟨t, ht, hst.info.trans hinfo, hplaced.start_eq hst, hplaced.continues hst⟩

/-- The records are asked for and one of them comes, the device restarts into another session, and a
record of that one comes. -/
def restarted : List Operation :=
  [.current (.requestTransfer (Script.span 0 9)), .current (.receiveBulk (Device.record (pos 7))),
    .prepare (pos 0) (pos 4) (Device.standard.inSession 2).info Rehearsal.now,
    .current (.receiveCursor (Device.record (pos 3)))]

/-- The first session is still where it was placed, and its record was taken two periods before. -/
theorem placed_over_a_restart :
    (empty Device.standard.id .standard).isIn Device.standard.info.id = false ∧ (pos 9).IsSet ∧
      0 ≤ Rehearsal.now.millis ∧ (∀ o ∈ restarted, o ≠ .clear) ∧
      ∃ k t time, ((empty Device.standard.id .standard).ensure Device.standard.info (pos 9)
          Rehearsal.now).performAll restarted = .ok k ∧
        k.sessions[0]? = some t ∧ t.PlacedBy (pos 9) Rehearsal.now time ∧
        k.history.map (fun y => y.time.map Instant.millis) =
          [some (Rehearsal.now.millis - 10000), some (Rehearsal.now.millis - 5000)] := by
  have hnew : (empty Device.standard.id .standard).isIn Device.standard.info.id = false := rfl
  have hset : (pos 9).IsSet := by decide
  have hnow : 0 ≤ Rehearsal.now.millis := by decide
  have hkept : ∀ o ∈ restarted, o ≠ .clear := by decide
  obtain ⟨s, time, -, -, -, hlater⟩ := placed_once_for_all hnew hset hnow
  obtain ⟨⟨t, ht, -, -, hplaced⟩, -⟩ := hlater restarted _ hkept rfl
  exact ⟨hnew, hset, hnow, hkept, _, t, time, rfl, ht, hplaced, by decide⟩

end Journal

end Logbook
