import Logbook.Proofs.Session.Accounts
import Logbook.Proofs.Session.Operations

/-!
# How much of a request has come

The accounts of a request are told to callers in whole percent. The percentage is cut off and not
rounded, so it says a hundred only when the request is complete, and as long as no other request is
made nothing that is done to a session takes any of it back.

- `Progress.PercentExact`: the machine words in which the percentage is taken lose nothing, and a
  hundred percent is to be complete.
- `Progress.percentExact`: that is so whatever the accounts are.
- `Progress.Rises`: the same is expected, and no less has come.
- `Session.rises_of_perform`: every operation but a request lets the accounts rise.
- `Session.Pursued`: such operations lead from one session to another, and `Session.Pursued.rises`.
- `Session.percent_never_goes_back`: the percentage never goes back while a request is out.
-/

namespace Logbook

open Rehearsal Script

namespace Progress

variable {p q r : Progress}

/-! ## The percentage in numbers -/

/-- A hundred times what came of the expected records, in 64 bits. -/
theorem toNat_hundredfold (p : Progress) :
    ((min p.transferred p.expected).toUInt64 * 100).toNat =
      min p.transferred.toNat p.expected.toNat * 100 := by
  have hbound := p.expected.toNat_lt
  have hcame : (min p.transferred p.expected).toUInt64.toNat =
      min p.transferred.toNat p.expected.toNat := by
    rw [UInt32.toNat_toUInt64, UInt32.toNat_min]
  rw [UInt64.toNat_mul, hcame]
  show min p.transferred.toNat p.expected.toNat * 100 % 2 ^ 64 = _
  omega

theorem toNat_expected_pos (h : p.expected ≠ 0) : 0 < p.expected.toNat :=
  UInt32.le_iff_toNat_le.mp (Counter.one_le_of_ne_zero h)

/-- No more than a hundred percent can come, for only what is expected counts. -/
theorem percent_nat_le (done total : ℕ) : min done total * 100 / total ≤ 100 :=
  Nat.div_le_of_le_mul (Nat.mul_le_mul_right 100 (Nat.min_le_right done total))

/-- A hundred percent are reached with the last of the expected records, and not before. -/
theorem percent_nat_eq_iff {total : ℕ} (htotal : 0 < total) (done : ℕ) :
    min done total * 100 / total = 100 ↔ total ≤ done := by
  have hle := percent_nat_le done total
  have hreached : 100 ≤ min done total * 100 / total ↔ 100 * total ≤ min done total * 100 :=
    Nat.le_div_iff_mul_le htotal
  omega

/-- The quotient before it is cut to eight bits. -/
theorem toNat_quotient (p : Progress) :
    ((min p.transferred p.expected).toUInt64 * 100 / p.expected.toUInt64).toNat =
      min p.transferred.toNat p.expected.toNat * 100 / p.expected.toNat := by
  rw [UInt64.toNat_div, toNat_hundredfold, UInt32.toNat_toUInt64]

theorem toNat_percent (h : p.expected ≠ 0) :
    p.percent.toNat = min p.transferred.toNat p.expected.toNat * 100 / p.expected.toNat := by
  have hle := percent_nat_le p.transferred.toNat p.expected.toNat
  unfold percent
  rw [if_neg h, UInt64.toNat_toUInt8, toNat_quotient]
  exact Nat.mod_eq_of_lt (Nat.lt_of_le_of_lt hle (by decide))

/-- Of nothing expected, all has come. -/
theorem percent_of_nothing (h : p.expected = 0) : p.percent = 100 := if_pos h

/-- The percentage is what the numbers come to, and a hundred percent is to be complete. -/
structure PercentExact (p : Progress) : Prop where
  /-- The product fits into its 64 bits. -/
  product : ((min p.transferred p.expected).toUInt64 * 100).toNat =
    min p.transferred.toNat p.expected.toNat * 100
  /-- The quotient fits into its eight bits. -/
  quotient : p.expected ≠ 0 → p.percent.toUInt64 =
    (min p.transferred p.expected).toUInt64 * 100 / p.expected.toUInt64
  percent : p.expected ≠ 0 → p.percent.toNat =
    min p.transferred.toNat p.expected.toNat * 100 / p.expected.toNat
  le : p.percent ≤ 100
  eq_iff : p.percent = 100 ↔ p.isComplete

/-- **The percentage is exact**, whatever the accounts are. -/
theorem percentExact (p : Progress) : p.PercentExact where
  product := p.toNat_hundredfold
  quotient h := by
    rw [← UInt64.toNat_inj, UInt8.toNat_toUInt64, toNat_percent h, toNat_quotient]
  percent := toNat_percent
  le := by
    rw [UInt8.le_iff_toNat_le]
    by_cases h : p.expected = 0
    · rw [percent_of_nothing h]
    · rw [toNat_percent h]
      exact percent_nat_le _ _
  eq_iff := by
    rw [isComplete, decide_eq_true_iff, UInt32.le_iff_toNat_le, ← UInt8.toNat_inj]
    by_cases h : p.expected = 0
    · rw [percent_of_nothing h, h]
      exact iff_of_true rfl (Nat.zero_le _)
    · rw [toNat_percent h]
      exact percent_nat_eq_iff (toNat_expected_pos h) _

/-! ## Accounts that rise -/

/-- The request is the same one, and no less of it has come. -/
structure Rises (p q : Progress) : Prop where
  expected : q.expected = p.expected
  requested : q.requested = p.requested
  transferred : p.transferred ≤ q.transferred

namespace Rises

theorem refl (p : Progress) : p.Rises p := ⟨rfl, rfl, UInt32.le_refl _⟩

theorem trans (h : p.Rises q) (h' : q.Rises r) : p.Rises r where
  expected := h'.expected.trans h.expected
  requested := h'.requested.trans h.requested
  transferred := UInt32.le_trans h.transferred h'.transferred

/-- The percentage rises with the accounts. -/
theorem percent_le (h : p.Rises q) : p.percent ≤ q.percent := by
  by_cases hnone : p.expected = 0
  · rw [percent_of_nothing hnone, percent_of_nothing (h.expected.trans hnone)]
    exact UInt8.le_refl _
  · have hnone' : q.expected ≠ 0 := by rwa [h.expected]
    have hcame : min p.transferred.toNat p.expected.toNat ≤
        min q.transferred.toNat p.expected.toNat := by
      have hle := UInt32.le_iff_toNat_le.mp h.transferred
      omega
    rw [UInt8.le_iff_toNat_le, toNat_percent hnone, toNat_percent hnone', h.expected]
    exact Nat.div_le_div_right (Nat.mul_le_mul_right 100 hcame)

/-- What is complete stays so. -/
theorem isComplete (h : p.Rises q) (hdone : p.isComplete) : q.isComplete := by
  unfold Progress.isComplete at hdone ⊢
  rw [decide_eq_true_iff] at hdone ⊢
  rw [h.expected]
  exact UInt32.le_trans hdone h.transferred

end Rises

end Progress

namespace Session

variable {s t u : Session}

/-! ## Operations without a request -/

/-- The operation makes a new request, with which the accounts begin anew. -/
def Operation.isRequest : Operation → Bool
  | .requestTransfer _ => true
  | .requestBackfill _ _ => true
  | _ => false

theorem rises_receiveBulk (s : Session) (x : Record) :
    s.progress.Rises (s.receiveBulk x).progress where
  expected := expected_receiveBulk s x
  requested := requested_receiveBulk s x
  transferred := by
    rw [transferred_receiveBulk]
    split
    · exact Counter.le_succ _
    · exact UInt32.le_refl _

/-- **Every operation but a request lets the accounts rise.** -/
theorem rises_of_perform {o : Operation} (ho : o.isRequest = false) (h : s.perform o = .ok t) :
    s.progress.Rises t.progress := by
  have hsame (heq : t.progress = s.progress) : s.progress.Rises t.progress := by
    rw [heq]
    exact .refl _
  cases o with
  | anchor p now =>
    cases h
    exact hsame (progress_anchor s p now)
  | requestTransfer | requestBackfill => cases ho
  | receiveBulk x =>
    cases h
    exact rises_receiveBulk s x
  | receiveCursor x =>
    cases h
    exact hsame (progress_receiveCursor s x)
  | finish =>
    cases h
    exact hsame rfl
  | forgetCursor =>
    cases h
    exact hsame rfl

/-- Such an operation is always possible. -/
theorem exists_perform (s : Session) {o : Operation} (ho : o.isRequest = false) :
    ∃ t, s.perform o = .ok t := by
  cases o with
  | requestTransfer | requestBackfill => cases ho
  | _ => exact ⟨_, rfl⟩

/-- Operations that make no request lead from one session to another. -/
inductive Pursued (s : Session) : Session → Prop
  | refl : Pursued s s
  | step {t u : Session} (o : Operation) (ht : Pursued s t) (ho : o.isRequest = false)
      (hu : t.perform o = .ok u) : Pursued s u

theorem Pursued.rises (h : Pursued s t) : s.progress.Rises t.progress := by
  induction h with
  | refl => exact .refl _
  | step o _ ho hu ih => exact ih.trans (rises_of_perform ho hu)

/-! ## While a request is out -/

/-- Anything but a request can be done to the session at any time, and none of it takes anything of
the percentage back. -/
structure NeverGoesBack (s : Session) : Prop where
  possible : ∀ t o, Pursued s t → o.isRequest = false → ∃ u, t.perform o = .ok u
  percent : ∀ t u, Pursued s t → Pursued t u → t.progress.percent ≤ u.progress.percent
  /-- What is complete stays so. -/
  complete : ∀ t u, Pursued s t → Pursued t u → t.progress.isComplete → u.progress.isComplete

theorem neverGoesBack (s : Session) : s.NeverGoesBack where
  possible t _ _ ho := t.exists_perform ho
  percent _ _ _ hu := hu.rises.percent_le
  complete _ _ _ hu := hu.rises.isComplete

/-- **The percentage is exact and never goes back while a request is out.** Whatever the accounts
are, the percentage is what the numbers come to, at most a hundred, and a hundred just when the
request is complete. Whatever a session holds, a request for a span in order can be made, for a
transfer as for a hole; and until another one is made, the percentage never goes back, whatever the
channels bring. -/
theorem percent_never_goes_back :
    (∀ p : Progress, p.PercentExact) ∧
      ∀ (s : Session) (span : Span), span.Ordered →
        (∃ t, s.requestTransfer span = .ok t ∧ t.NeverGoesBack) ∧
          ∀ cursor, ∃ t, s.requestBackfill span cursor = .ok t ∧ t.NeverGoesBack := by
  refine ⟨Progress.percentExact, fun s span hordered => ⟨?_, fun cursor => ?_⟩⟩
  · exact ⟨_, request_of_ordered hordered _, neverGoesBack _⟩
  · exact ⟨_, request_of_ordered hordered _, neverGoesBack _⟩

/-- Of three records that are missing one comes before the request is finished, and another one
after it, with a record of the cursor channel between them. -/
theorem percent_of_three_records :
    (Script.span 0 3).Ordered ∧ ∃ t u v, withTwoRecords.requestTransfer (Script.span 0 3) = .ok t ∧
      Pursued t u ∧ Pursued u v ∧ u.progress.percent = 33 ∧ v.progress.percent = 66 ∧
      u.progress.percent ≤ v.progress.percent := by
  have hordered : (Script.span 0 3).Ordered := by decide
  obtain ⟨⟨t, ht, hback⟩, -⟩ := percent_never_goes_back.2 withTwoRecords _ hordered
  have hu : Pursued t (t.receiveBulk (Device.record (pos 3))).finish :=
    (Pursued.refl.step (.receiveBulk _) rfl rfl).step .finish rfl rfl
  generalize hu' : (t.receiveBulk (Device.record (pos 3))).finish = u at hu
  have hv : Pursued u ((u.receiveCursor (Device.record (pos 9))).receiveBulk
      (Device.record (pos 2))) :=
    (Pursued.refl.step (.receiveCursor _) rfl rfl).step (.receiveBulk _) rfl rfl
  refine ⟨hordered, t, u, _, ht, hu, hv, ?_, ?_, hback.percent _ _ hu hv⟩
  · cases ht
    rw [← hu']
    decide
  · cases ht
    rw [← hu']
    decide

end Session

end Logbook
