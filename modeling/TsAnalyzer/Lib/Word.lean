/-
  Machine words as natural numbers.

  A `uint64_t` is a `Nat` below `2^64`; sums are reduced, and a difference WRAPS (`sub64`): it is a
  distance that grows by one, modulo `2^64`, when its left end does.
-/
import Mathlib

namespace TsAnalyzer.Lib

/-- `a - b` in `uint64_t` arithmetic. -/
def sub64 (a b : Nat) : Nat := (a + (2 ^ 64 - b % 2 ^ 64)) % 2 ^ 64

theorem sub64_succ (a b : Nat) : sub64 ((a + 1) % 2 ^ 64) b = (sub64 a b + 1) % 2 ^ 64 := by
  unfold sub64
  omega

theorem sub64_le {a b : Nat} (h : b ≤ a) : sub64 a b ≤ a - b := by
  unfold sub64
  omega

theorem sub64_of_le {a b : Nat} (h : b ≤ a) (ha : a < 2 ^ 64) : sub64 a b = a - b := by
  unfold sub64
  omega

end TsAnalyzer.Lib
