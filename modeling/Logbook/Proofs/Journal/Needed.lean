import Logbook.Proofs.Journal
import Logbook.Rehearsal.Script

/-!
# What a transfer has to ask for

A device has records from a first to a last position, and the journal may hold some of them. A
request leaves out the run of records that is held from the first position on, so that a transfer
that was cut short goes on where it stopped. Everything above that run is asked for, be it held or
not.

- `Store.runEnd_spec`, `Store.le_runEnd`: how far the records reach without a hole.
- `Store.held_of_lt_resumeFrom`: whatever a request leaves out is held.
- `Store.Seamless`: nothing is missing below a position; only then something is left out.
- `Store.Needs`: what a store needs so that it holds all positions between two bounds.
- `Journal.exists_ensured`: the session that is asked about is the current one, and no session
  changes.
- `Journal.needs_after_prepare`: what is asked for is what the session needs.
-/

namespace Logbook

namespace Store

variable {s : Store} {first last p : Position} {span : Span}

/-! ## The run of records that is left out -/

/-- All positions up to the end of a run are held. The walk stops at the first record that does not
follow on the one before it, so that the order of the records does not matter here. -/
theorem runEnd_spec (p : Position) (l : List Record) :
    p ≤ runEnd p l ∧ ∀ q, p ≤ q → q ≤ runEnd p l → q = p ∨ ∃ r ∈ l, r.position = q := by
  induction l generalizing p with
  | nil => exact ⟨Nat.le_refl _, fun q hge hle => .inl (Position.le_antisymm hle hge)⟩
  | cons x rest ih =>
    rw [runEnd]
    split
    · next hnext =>
      obtain ⟨hend, hheld⟩ := ih x.position
      refine ⟨Nat.le_trans (by omega) hend, fun q hge hle => ?_⟩
      by_cases hq : q = p
      · exact .inl hq
      -- what is not the position itself lies at the record behind it, or above
      · have hne : q.toNat ≠ p.toNat := fun he => hq (Position.ext he)
        have habove : x.position ≤ q := by
          rw [Position.le_iff] at hge ⊢
          omega
        rcases hheld q habove hle with rfl | ⟨r, hr, hposition⟩
        · exact .inr ⟨x, List.mem_cons_self, rfl⟩
        · exact .inr ⟨r, List.mem_cons_of_mem _ hr, hposition⟩
    · exact ⟨Nat.le_refl _, fun q hge hle => .inl (Position.le_antisymm hle hge)⟩

theorem le_resumeFrom (s : Store) (first : Position) : first ≤ s.resumeFrom first := by
  have hmax (p : Position) : first ≤ max p first := by
    rw [Position.le_iff, Position.toNat_max]
    exact Nat.le_max_right _ _
  unfold resumeFrom
  split
  · exact Nat.le_refl _
  · split
    · exact hmax _
    · exact Nat.le_refl _

/-- A run goes on as long as the next position is held. The records have to be in ascending order
for this, because the walk does not look past the first one that does not follow. -/
theorem le_runEnd {l : List Record} (hascending : l.Pairwise (·.position < ·.position))
    (habove : ∀ x ∈ l, p < x.position)
    (hheld : ∀ q, p < q → q ≤ last → ∃ x ∈ l, x.position = q) : last ≤ runEnd p l := by
  induction l generalizing p with
  | nil =>
    refine Nat.le_of_not_lt fun hlt => ?_
    obtain ⟨x, hx, -⟩ := hheld last hlt (Nat.le_refl _)
    exact absurd hx List.not_mem_nil
  | cons x rest ih =>
    obtain ⟨hrest, hascending⟩ := List.pairwise_cons.mp hascending
    have hx : p.toNat < x.position.toNat := habove x List.mem_cons_self
    rw [runEnd]
    split
    · next hnext =>
      refine ih hascending hrest fun q hlt hle => ?_
      obtain ⟨y, hy, rfl⟩ := hheld q (Nat.lt_trans hx hlt) hle
      rcases List.mem_cons.mp hy with rfl | hy
      · exact absurd hlt (Nat.lt_irrefl _)
      · exact ⟨y, hy, rfl⟩
    -- the position that follows is not held, so nothing above it can be asked about
    · next hnext =>
      refine Nat.le_of_not_lt fun hlt => ?_
      have hlt : p.toNat < last.toNat := hlt
      obtain ⟨y, hy, hfollows⟩ := hheld ⟨p.toNat + 1, Nat.lt_of_le_of_lt hlt last.toNat_lt⟩
        (Nat.lt_succ_self _) hlt
      have hfollows : y.position.toNat = p.toNat + 1 := congrArg Position.toNat hfollows
      rcases List.mem_cons.mp hy with rfl | hy
      · exact hnext hfollows
      · have hbetween : x.position.toNat < y.position.toNat := hrest y hy
        omega

/-- What a request leaves out belongs to the run that begins with the lowest held position. -/
theorem run_of_lt_resumeFrom (hge : first ≤ p) (hlt : p < s.resumeFrom first) :
    ∃ q ∈ s, q ≤ first ∧ (∀ a ∈ s, q ≤ a) ∧ s.Covers ⟨q, p⟩ := by
  obtain ⟨records, hascending⟩ := s
  have hnothing : ¬ p < first := Nat.not_lt.mpr hge
  unfold resumeFrom at hlt
  cases records with
  | nil => exact absurd hlt hnothing
  | cons x rest =>
    dsimp only at hlt
    split at hlt
    · next hle =>
      rw [Position.lt_iff, Position.toNat_max, Position.toNat_next] at hlt
      rw [Position.le_iff] at hge
      refine ⟨x.position, ⟨x, List.mem_cons_self, rfl⟩, hle, ?_, ?_⟩
      · rintro a ⟨y, hy, rfl⟩
        exact Record.head_le hascending hy
      · rintro q ⟨hq, hqp⟩
        rw [Position.le_iff] at hqp
        have hend : q ≤ runEnd x.position rest := by
          rw [Position.le_iff]
          dsimp only at hqp
          omega
        rcases (runEnd_spec x.position rest).2 q hq hend with rfl | ⟨r, hr, rfl⟩
        · exact ⟨x, List.mem_cons_self, rfl⟩
        · exact ⟨r, List.mem_cons_of_mem _ hr, rfl⟩
    · exact absurd hlt hnothing

/-- **What a request leaves out is held.** -/
theorem held_of_lt_resumeFrom (hge : first ≤ p) (hlt : p < s.resumeFrom first) : p ∈ s := by
  obtain ⟨q, -, hq, -, hcovers⟩ := run_of_lt_resumeFrom hge hlt
  exact hcovers p ⟨Nat.le_trans hq hge, Nat.le_refl _⟩

/-! ## Where the run ends -/

/-- No position is missing between a held one and `first`. -/
def Seamless (s : Store) (first : Position) : Prop := ∀ q ∈ s, q ≤ first → s.Covers ⟨q, first⟩

instance (s : Store) (first : Position) : Decidable (s.Seamless first) :=
  decidable_of_iff (∀ r ∈ s.records, r.position ≤ first → s.Covers ⟨r.position, first⟩)
    ⟨fun h _ ⟨r, hr, he⟩ => he ▸ h r hr, fun h r hr => h r.position ⟨r, hr, rfl⟩⟩

/-- Something is left out only if the records reach up to it without a hole. -/
theorem seamless_of_lt_resumeFrom (h : first < s.resumeFrom first) : s.Seamless first := by
  obtain ⟨q, -, -, hlowest, hcovers⟩ := run_of_lt_resumeFrom (Nat.le_refl _) h
  intro a ha _ p hp
  exact hcovers p ⟨Nat.le_trans (hlowest a ha) hp.1, hp.2⟩

/-- Behind a hole nothing is left out. -/
theorem resumeFrom_of_not_seamless (h : ¬ s.Seamless first) : s.resumeFrom first = first := by
  refine Position.ext (Nat.le_antisymm ?_ (s.le_resumeFrom first))
  exact Nat.le_of_not_lt fun hlt => h (seamless_of_lt_resumeFrom hlt)

/-- Without a hole below them, held positions are left out up to the last but one position of a
stream. -/
theorem lt_resumeFrom (hle : first ≤ last) (hbelow : last < .last) (hseamless : s.Seamless first)
    (hheld : s.Covers ⟨first, last⟩) : last < s.resumeFrom first := by
  obtain ⟨records, hascending⟩ := s
  obtain ⟨y, hy, hposition⟩ := hheld first ⟨Nat.le_refl _, hle⟩
  cases records with
  | nil => exact absurd hy List.not_mem_nil
  | cons x rest =>
    obtain ⟨hrest, htail⟩ := List.pairwise_cons.mp hascending
    have hlowest : x.position ≤ first := hposition ▸ Record.head_le hascending hy
    have hrun : last ≤ runEnd x.position rest := by
      refine le_runEnd htail hrest fun q hlt hq => ?_
      have hq : q ∈ (⟨x :: rest, hascending⟩ : Store) := by
        rcases Nat.le_total q.toNat first.toNat with hbefore | hafter
        · exact hseamless x.position ⟨x, List.mem_cons_self, rfl⟩ hlowest q
            ⟨Nat.le_of_lt hlt, hbefore⟩
        · exact hheld q ⟨hafter, hq⟩
      obtain ⟨z, hz, rfl⟩ := hq
      rcases List.mem_cons.mp hz with rfl | hz
      · exact absurd hlt (Nat.lt_irrefl _)
      · exact ⟨z, hz, rfl⟩
    have hbelow : last.toNat < 4294967294 := hbelow
    rw [Position.le_iff] at hrun
    unfold resumeFrom
    dsimp only
    rw [if_pos hlowest, Position.lt_iff, Position.toNat_max, Position.toNat_next]
    omega

/-! ## What is needed -/

/-- What a store needs so that it holds all positions from `first` to `last`. -/
inductive Needs (s : Store) (first last : Position) : Option Span → Prop
  /-- All that is missing lies in the span, which ends where the positions end; what lies before it
  is held. -/
  | span {span : Span} (hfirst : first ≤ span.first) (hordered : span.first ≤ span.last)
      (hlast : span.last = last) (hmissing : ∀ p, first ≤ p → p ≤ last → p ∉ s → p ∈ span)
      (hheld : ∀ p, first ≤ p → p < span.first → p ∈ s) : Needs s first last (some span)
  /-- Nothing is missing. -/
  | nothing (hheld : ∀ p, first ≤ p → p ≤ last → p ∈ s) : Needs s first last none

theorem needs_resumeFrom (s : Store) (first : Position) (hlast : last.IsSet) :
    s.Needs first last (Span.ofBounds? (s.resumeFrom first) last) := by
  unfold Span.ofBounds?
  split
  · next h =>
    refine .span (s.le_resumeFrom first) h.1 rfl (fun p hge hle hp => ⟨?_, hle⟩)
      fun p hge hlt => held_of_lt_resumeFrom hge hlt
    exact Nat.le_of_not_lt fun hlt => hp (held_of_lt_resumeFrom hge hlt)
  · next h =>
    have hbeyond : last < s.resumeFrom first := Nat.lt_of_not_le fun hle => h ⟨hle, hlast⟩
    exact .nothing fun p hge hle => held_of_lt_resumeFrom hge (Nat.lt_of_le_of_lt hle hbeyond)

end Store

namespace Journal

open Rehearsal Script

/-- The session that is asked about is the current one. No session changes, and one that is opened
has no records. -/
theorem exists_ensured (j : Journal) (info : SessionInfo) (latest : Position) (now : Instant) :
    ∃ s opened, (j.ensure info latest now).current = some s ∧ s.id = info.id ∧
      (j.ensure info latest now).sessions = j.sessions ++ opened ∧
      ∀ t ∈ opened, t.store = .empty := by
  cases hin : j.isIn info.id with
  | true =>
    rw [ensure_of_isIn hin]
    obtain ⟨s, hs, hid⟩ := (Option.any_eq_true _ _).mp hin
    exact ⟨s, [], hs, of_decide_eq_true hid, (List.append_nil _).symm,
      fun t ht => absurd ht List.not_mem_nil⟩
  | false =>
    rw [ensure_of_not_isIn hin]
    refine ⟨_, [(Session.begin info j.tolerance).anchor latest now], rfl, ?_, rfl, ?_⟩
    · rw [Session.id, Session.info_anchor]
      rfl
    · intro t ht
      rw [List.mem_singleton.mp ht, Session.store_anchor]
      rfl

/-- **No record that is needed is left out.** Whatever a journal holds, and whichever positions a
device has, the session that the device is in is the current one afterwards, and what is asked for
is what it needs; no session that was there changes. -/
theorem needs_after_prepare (j : Journal) (first : Position) {last : Position}
    (hlast : last.IsSet) (info : SessionInfo) (now : Instant) :
    ∃ s opened, (j.prepare first last info now).1.current = some s ∧ s.id = info.id ∧
      (j.prepare first last info now).1.sessions = j.sessions ++ opened ∧
      (∀ t ∈ opened, t.store = .empty) ∧
      s.store.Needs first last (j.prepare first last info now).2 := by
  obtain ⟨s, opened, hs, hid, hsessions, hopened⟩ := j.exists_ensured info last now
  have hneeded : (j.prepare first last info now).2 =
      Span.ofBounds? (s.store.resumeFrom first) last := by
    show (j.ensure info last now).needed? first last = _
    rw [needed?, hs]
  rw [hneeded]
  exact ⟨s, opened, hs, hid, hsessions, hopened, s.store.needs_resumeFrom first hlast⟩

/-- A journal of the usual device that holds the positions 0, 1, 2 and 5. -/
def withHole : Journal :=
  ((empty Device.standard.id .standard).ensure Device.standard.info .zero now).update fun s =>
    [pos 0, pos 1, pos 2, pos 5].foldl (fun s p => s.receiveBulk (Device.record p)) s

/-- Of the positions from 1 to 9 those from 3 on are asked for, also the one that is held. -/
theorem needs_behind_a_run :
    (pos 9).IsSet ∧
      (withHole.prepare (pos 1) (pos 9) Device.standard.info now).2 = some (span 3 9) ∧
      ∃ s opened, (withHole.prepare (pos 1) (pos 9) Device.standard.info now).1.current = some s ∧
        s.id = Device.standard.info.id ∧
        (withHole.prepare (pos 1) (pos 9) Device.standard.info now).1.sessions =
          withHole.sessions ++ opened ∧
        (∀ t ∈ opened, t.store = .empty) ∧
        s.store.Needs (pos 1) (pos 9)
          (withHole.prepare (pos 1) (pos 9) Device.standard.info now).2 :=
  ⟨by decide, by decide, needs_after_prepare withHole (pos 1) (by decide) _ _⟩

end Journal

end Logbook
