/-
  CheatEngine.Lib.Bits

  The bits of a number from one place to another: what a mask of ones leaves of it.
-/
import Mathlib.Data.Nat.Bitwise

namespace CheatEngine.Lib

theorem testBit_mask {n k : Nat} (hk : k ≤ n) (i : Nat) :
    (2 ^ n - 2 ^ k).testBit i = (decide (k ≤ i) && decide (i < n)) := by
  have hmask : 2 ^ n - 2 ^ k = 2 ^ k * (2 ^ (n - k) - 1) := by
    rw [Nat.mul_sub, ← Nat.pow_add, Nat.add_sub_cancel' hk, Nat.mul_one]
  rw [hmask, Nat.testBit_two_pow_mul, Nat.testBit_two_pow_sub_one]
  by_cases hki : k ≤ i
  · have hiff : i - k < n - k ↔ i < n := by omega
    simp only [hki, hiff]
  · simp [hki]

theorem and_mask {n k : Nat} (hk : k ≤ n) (x : Nat) :
    x &&& (2 ^ n - 2 ^ k) = 2 ^ k * (x % 2 ^ n / 2 ^ k) := by
  refine Nat.eq_of_testBit_eq fun i => ?_
  rw [Nat.testBit_and, testBit_mask hk, Nat.testBit_two_pow_mul, Nat.testBit_div_two_pow,
    Nat.testBit_mod_two_pow]
  by_cases hki : k ≤ i
  · rw [Nat.sub_add_cancel hki]
    cases x.testBit i <;> simp [hki]
  · simp [hki]

end CheatEngine.Lib
