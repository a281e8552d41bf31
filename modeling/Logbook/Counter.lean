/-!
# Counters that stop at their ends

Requests are accounted for in 32-bit counters. They never wrap: one more than the largest
counter is the largest counter, and one less than zero is zero.

- `Counter.ofNat`: the counter nearest to a number.
- `Counter.succ`, `Counter.pred`: one more and one less.
- `Counter.toNat_ofNat`, `Counter.toNat_succ`, `Counter.toNat_pred`: all three as numbers.
-/

namespace Logbook

/-- A 32-bit count. -/
abbrev Counter := UInt32

namespace Counter

/-- The counter nearest to a number. -/
def ofNat (n : Nat) : Counter := UInt32.ofNat (min n 4294967295)

/-- One more, stopping at the largest counter. -/
def succ (n : Counter) : Counter := if n = 4294967295 then n else n + 1

/-- One less, stopping at zero. -/
def pred (n : Counter) : Counter := if n = 0 then n else n - 1

theorem toNat_ofNat (n : Nat) : (ofNat n).toNat = min n 4294967295 := by
  rw [ofNat, UInt32.toNat_ofNat']
  omega

theorem toNat_succ (n : Counter) : (succ n).toNat = min (n.toNat + 1) 4294967295 := by
  have := n.toNat_lt
  unfold succ
  split
  · next h => subst h; rfl
  · next h =>
    have h' : n.toNat ≠ 4294967295 := fun e => h (UInt32.toNat_inj.mp e)
    rw [UInt32.toNat_add]
    simp only [UInt32.toNat_one]
    omega

theorem le_succ (n : Counter) : n ≤ succ n := by
  have := n.toNat_lt
  rw [UInt32.le_iff_toNat_le, toNat_succ]
  omega

theorem toNat_pred (n : Counter) : (pred n).toNat = n.toNat - 1 := by
  unfold pred
  split
  · next h => subst h; rfl
  · next h =>
    have h' : n.toNat ≠ 0 := fun e => h (UInt32.toNat_inj.mp e)
    have h1 : (1 : UInt32) ≤ n := by
      rw [UInt32.le_iff_toNat_le, UInt32.toNat_one]
      omega
    rw [UInt32.toNat_sub_of_le _ _ h1, UInt32.toNat_one]

theorem one_le_of_ne_zero {n : Counter} (h : n ≠ 0) : 1 ≤ n := by
  have hne : n.toNat ≠ 0 := fun he => h (UInt32.toNat_inj.mp he)
  rw [UInt32.le_iff_toNat_le, UInt32.toNat_one]
  omega

end Counter

end Logbook
