/-
  Q64.64 fixed-point numbers in a 128-bit two's-complement word.

  A value is an `Int`; every operation of the machine is followed by `wrap128`, the reduction to
  `[-2^127, 2^127)`.  The lemmas say when the reduction does NOTHING, which is what a fixed-point
  program relies on, and what a shift by 64 does when its argument has 64 bits or more.
-/
import Mathlib

namespace TsAnalyzer.Lib

/-- Reduction to a 128-bit two's-complement word. -/
def wrap128 (x : Int) : Int := Int.bmod x (2 ^ 128)

def toQ64 (x : Int) : Int := wrap128 (x * 2 ^ 64)

theorem wrap128_of_range {x : Int} (h1 : -(2 ^ 127) ≤ x) (h2 : x < 2 ^ 127) : wrap128 x = x := by
  unfold wrap128
  rw [Int.bmod_def]
  split <;> omega

theorem wrap128_lower (x : Int) : -(2 ^ 127) ≤ wrap128 x := Int.le_bmod (by decide)

theorem wrap128_upper (x : Int) : wrap128 x < 2 ^ 127 := Int.bmod_lt (by decide)

theorem toQ64_of_range {x : Int} (h1 : -(2 ^ 63) ≤ x) (h2 : x < 2 ^ 63) : toQ64 x = x * 2 ^ 64 :=
  wrap128_of_range (by omega) (by omega)

theorem toQ64_wrap128_nonneg {x : Nat} (h : x % 2 ^ 64 < 2 ^ 63) : 0 ≤ toQ64 (wrap128 x) := by
  have hw : wrap128 x % 2 ^ 64 = x % 2 ^ 64 := by
    unfold wrap128
    rw [Int.bmod_def]
    split <;> omega
  have hmod : wrap128 x * 2 ^ 64 % 2 ^ 128 = wrap128 x % 2 ^ 64 * 2 ^ 64 := by omega
  unfold toQ64
  rw [wrap128, Int.bmod_def]
  split
  · omega
  · omega

end TsAnalyzer.Lib
