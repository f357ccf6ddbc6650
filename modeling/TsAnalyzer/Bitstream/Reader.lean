/-
  The bit reader (`include/tsa_bitstream.h`): up to 64 bits of the buffer in a cache, filled byte by
  byte.  A read of more bits than the cache holds returns 0 and consumes NOTHING, so at the end of
  the buffer every read returns at once.

  * The pointers `buf` and `buf_end` are the list of the bytes between them.
  * `bits_left` is never negative: `br_skip` clamps it.
  * `ops` is not in the source: it counts the calls of `br_...` functions and the bytes loaded, the
    effort so far.
-/
import TsAnalyzer.Lib.Amortized

namespace TsAnalyzer.Bitstream

open Lib

/-- `bit_reader_t`. -/
structure Reader where
  /-- The bytes from `buf` to `buf_end`. -/
  rest : List UInt8
  cache : Nat
  bitsLeft : Nat
  ops : Nat
  deriving DecidableEq

abbrev Read := StateM Reader

def refillLoop : List UInt8 → Nat → Nat → Nat → Reader
  | [], cache, bitsLeft, ops => ⟨[], cache, bitsLeft, ops⟩
  | b :: rest, cache, bitsLeft, ops =>
    if bitsLeft ≤ 56 then
      refillLoop rest ((cache <<< 8 ||| b.toNat) % 2 ^ 64) (bitsLeft + 8) (ops + 1)
    else ⟨b :: rest, cache, bitsLeft, ops⟩

def brRefill (r : Reader) : Reader := refillLoop r.rest r.cache r.bitsLeft (r.ops + 1)

def brInit (buf : List UInt8) : Reader := brRefill ⟨buf, 0, 0, 1⟩

/-- The next `n` bits of the cache, in a `uint32_t`. -/
def Reader.next (r : Reader) (n : Nat) : Nat :=
  ((r.cache >>> (r.bitsLeft - n)) &&& ((1 <<< n) - 1)) % 2 ^ 32

/-- One operation. -/
def tick : Read Unit := fun r => ((), { r with ops := r.ops + 1 })

def brPeek (n : Nat) : Read Nat := fun r =>
  (if n = 0 ∨ r.bitsLeft < n then 0 else r.next n, { r with ops := r.ops + 1 })

def brSkip (n : Nat) : Read Unit := fun r =>
  ((), brRefill { r with bitsLeft := r.bitsLeft - n, ops := r.ops + 1 })

def brRead (n : Nat) : Read Nat := fun r =>
  if n = 0 ∨ r.bitsLeft < n then (0, { r with ops := r.ops + 1 })
  else (r.next n, brRefill { r with bitsLeft := r.bitsLeft - n, ops := r.ops + 1 })

/-- The loop of `br_read_ue`, with the zeros it may still count and those it has counted.  It looks
    at the next bit before it looks at the number of zeros. -/
def zeroLoop : Nat → Nat → Read Nat
  | 0, zeros => fun r => if 0 < r.bitsLeft then (zeros, (brPeek 1 r).2) else (zeros, r)
  | more + 1, zeros => fun r =>
    if 0 < r.bitsLeft then
      if (brPeek 1 r).1 = 0 then zeroLoop more (zeros + 1) (brSkip 1 (brPeek 1 r).2).2
      else (zeros, (brPeek 1 r).2)
    else (zeros, r)

theorem zeroLoop_zero (zeros : Nat) (r : Reader) :
    zeroLoop 0 zeros r = if 0 < r.bitsLeft then (zeros, (brPeek 1 r).2) else (zeros, r) := rfl

theorem zeroLoop_succ (more zeros : Nat) (r : Reader) :
    zeroLoop (more + 1) zeros r =
      if 0 < r.bitsLeft then
        if (brPeek 1 r).1 = 0 then zeroLoop more (zeros + 1) (brSkip 1 (brPeek 1 r).2).2
        else (zeros, (brPeek 1 r).2)
      else (zeros, r) := rfl

/-- `1 << n` in an `int`: a shift by 32 is undefined in C; the processor shifts by `n % 32`. -/
def shiftOne (n : Nat) : Nat := 2 ^ (n % 32)

def brReadUe : Read Nat := do
  tick
  let zeros ← zeroLoop 32 0
  let r ← get
  onlyIf (0 < r.bitsLeft) (brSkip 1)
  let bits ← brRead zeros
  return (shiftOne zeros - 1 + bits) % 2 ^ 32

def brReadSe : Read Int := do
  tick
  let ue ← brReadUe
  return if ue % 2 = 0 then -(ue / 2 : Nat) else ((ue + 1) % 2 ^ 32 / 2 : Nat)

/-! ## Effort -/

variable (n : Nat) (r : Reader)

end TsAnalyzer.Bitstream
