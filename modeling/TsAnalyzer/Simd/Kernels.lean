/-
  The vectorised kernels (`src/tsa_simd_avx2.c`, `src/tsa_simd_sse42.c`) against the scalar ones.

  **Program** — `findSyncVec w`: byte by byte to an address that `w` divides, then `w` bytes at
  once through a mask of the bytes that match, then the rest byte by byte.
-/
import TsAnalyzer.Lib.Bytes

namespace TsAnalyzer.Simd

open Lib List

/-! ## Program -/

def syncByte : UInt8 := 0x47

/-- `find_sync_scalar`; `none` is -1. -/
def findSyncScalar (buf : List UInt8) : Option Nat := buf.findIdx? (· == syncByte)

/-- `_mm_cmpeq_epi8` with the pattern. -/
def cmpeqEpi8 (data : List UInt8) : List UInt8 :=
  data.map fun b => if b == syncByte then 0xff else 0

/-- `_mm_movemask_epi8`: the top bits of the bytes, that of the first one lowest. -/
def movemaskEpi8 : List UInt8 → Nat
  | [] => 0
  | b :: bs => (b >>> 7).toNat + 2 * movemaskEpi8 bs

/-- `__builtin_ctz`. -/
def ctz (mask : Nat) : Nat := if mask = 0 ∨ mask % 2 = 1 then 0 else ctz (mask / 2) + 1
termination_by mask
decreasing_by omega

/-- The loop over the blocks from `i` on, and the tail. -/
def blockLoop (w i : Nat) (buf : List UInt8) : Option Nat :=
  if 0 < w ∧ w ≤ buf.length then
    let mask := movemaskEpi8 (cmpeqEpi8 (buf.take w))
    if mask ≠ 0 then some (i + ctz mask) else blockLoop w (i + w) (buf.drop w)
  else (findSyncScalar buf).map (i + ·)
termination_by buf.length
decreasing_by rw [length_drop]; omega

/-- The loop to an aligned address; `buf + i` is at `addr`. -/
def alignLoop (w addr i : Nat) : List UInt8 → Option Nat
  | [] => blockLoop w i []
  | b :: bs =>
    if addr % w ≠ 0 then if b == syncByte then some i else alignLoop w (addr + 1) (i + 1) bs
    else blockLoop w i (b :: bs)

/-- The search with vectors of `w` bytes, in a buffer at `addr`. -/
def findSyncVec (w addr : Nat) (buf : List UInt8) : Option Nat :=
  if buf.length < w then findSyncScalar buf else alignLoop w addr 0 buf

def tsaSimdFindSyncAvx2 : Nat → List UInt8 → Option Nat := findSyncVec 32

def tsaSimdFindSyncSse42 : Nat → List UInt8 → Option Nat := findSyncVec 16

def extractPids8Scalar (buf : Nat → UInt8) : List UInt16 :=
  (range 8).map fun i =>
    let p := fun k => buf (i * 188 + k)
    (p 1 &&& 0x1f).toUInt16 <<< 8 ||| (p 2).toUInt16

def tsaSimdExtractPids8Sse42 (buf : Nat → UInt8) : List UInt16 :=
  (range 8).map fun i =>
    let p := fun k => buf (i * 188 + k)
    (p 1 &&& 0x1f).toUInt16 <<< 8 ||| (p 2).toUInt16

/-- `_mm256_set_epi32`: the last argument is lane 0. -/
def setEpi32 (args : List Nat) : List Nat := args.reverse

/-- Four bytes as an `int32`, on a little-endian machine. -/
def int32At (buf : Nat → UInt8) (a : Nat) : UInt32 := .ofNat (load32 buf a)

/-- `_mm256_i32gather_epi32`. -/
def i32gatherEpi32 (base : Nat → UInt8) (offsets : List Nat) (scale : Nat) : List UInt32 :=
  offsets.map fun offset => int32At base (offset * scale)

def srliEpi32 (v : List UInt32) (count : UInt32) : List UInt32 := v.map (· >>> count)

def set1Epi32 (x : UInt32) : List UInt32 := replicate 8 x

def andSi256 : List UInt32 → List UInt32 → List UInt32 := zipWith (· &&& ·)

/-- The final extraction from one lane. -/
def lanePid (temp : UInt32) : UInt16 :=
  let b1 := (temp &&& 0xff).toUInt16
  let b2 := ((temp >>> 8) &&& 0xff).toUInt16
  (b1 &&& 0x1f) <<< 8 ||| b2

def tsaSimdExtractPids8Avx2 (buf : Nat → UInt8) : List UInt16 :=
  let offsets := setEpi32 [1316, 1128, 940, 752, 564, 376, 188, 0]
  let headers := i32gatherEpi32 buf offsets 1
  let temp := andSi256 (srliEpi32 headers 8) (set1Epi32 0xFFFF)
  (range 8).map fun i => lanePid (temp.getD i 0)

/-! ## Correctness -/

theorem ctz_odd (m : Nat) : ctz (1 + 2 * m) = 0 := by
  rw [ctz, if_pos (.inr (by omega))]

theorem ctz_even {m : Nat} (h : m ≠ 0) : ctz (2 * m) = ctz m + 1 := by
  rw [ctz, if_neg (by omega), Nat.mul_div_cancel_left m (by decide)]

/-- **The mask of a block**: its lowest bit is the first sync byte. -/
theorem movemask_block (bs : List UInt8) :
    findSyncScalar bs = if movemaskEpi8 (cmpeqEpi8 bs) ≠ 0
      then some (ctz (movemaskEpi8 (cmpeqEpi8 bs))) else none := by
  induction bs with
  | nil => rfl
  | cons b bs ih =>
    have hmask : movemaskEpi8 (cmpeqEpi8 (b :: bs)) =
        (if b == syncByte then 1 else 0) + 2 * movemaskEpi8 (cmpeqEpi8 bs) := by
      rw [cmpeqEpi8, map_cons, movemaskEpi8]
      split <;> rfl
    rw [hmask, findSyncScalar, findIdx?_cons]
    by_cases hb : b == syncByte
    · rw [if_pos hb, if_pos hb, ctz_odd, if_pos (by omega)]
    · rw [if_neg hb, if_neg hb, Nat.zero_add]
      rw [findSyncScalar] at ih
      rw [ih]
      by_cases hzero : movemaskEpi8 (cmpeqEpi8 bs) = 0
      · simp [hzero]
      · simp [hzero, ctz_even hzero]

theorem findSyncScalar_append (as bs : List UInt8) : findSyncScalar (as ++ bs) =
    (findSyncScalar as).or ((findSyncScalar bs).map (as.length + ·)) := by
  rw [findSyncScalar, findIdx?_append]
  simp only [Nat.add_comm]
  rfl

theorem blockLoop_eq (w i : Nat) (buf : List UInt8) :
    blockLoop w i buf = (findSyncScalar buf).map (i + ·) := by
  fun_induction blockLoop w i buf with
  | case1 i buf h mask hmask =>
    rw [← take_append_drop w buf, findSyncScalar_append, movemask_block, if_pos hmask]
    rfl
  | case2 i buf h mask hmask ih =>
    have hlen : (buf.take w).length = w := by rw [length_take]; omega
    rw [ih]
    conv => rhs; rw [← take_append_drop w buf, findSyncScalar_append, movemask_block, if_neg hmask]
    rw [Option.none_or, Option.map_map, hlen]
    simp only [Function.comp_def, Nat.add_assoc]
  | case3 => rfl

theorem alignLoop_eq (w : Nat) (buf : List UInt8) : ∀ addr i,
    alignLoop w addr i buf = (findSyncScalar buf).map (i + ·) := by
  induction buf with
  | nil => exact fun addr i => blockLoop_eq w i []
  | cons b bs ih =>
    intro addr i
    rw [alignLoop]
    split
    · rw [findSyncScalar, findIdx?_cons]
      split
      · rfl
      · rw [ih, Option.map_map, findSyncScalar]
        exact congrArg (Option.map · _) (funext fun k => by simp only [Function.comp_apply]; omega)
    · exact blockLoop_eq w i (b :: bs)

theorem findSyncVec_eq (w addr : Nat) (buf : List UInt8) :
    findSyncVec w addr buf = findSyncScalar buf := by
  rw [findSyncVec]
  split
  · rfl
  · rw [alignLoop_eq]
    simp

/-- A lane's PID is that of the packet it was gathered from. -/
theorem lanePid_gathered (buf : Nat → UInt8) (a : Nat) :
    lanePid ((int32At buf a >>> 8) &&& 0xFFFF) =
      (buf (a + 1) &&& 0x1f).toUInt16 <<< 8 ||| (buf (a + 2)).toUInt16 := by
  have hbyte : ∀ x : Nat, x &&& 255 = x % 2 ^ 8 := fun x => Nat.and_two_pow_sub_one_eq_mod x 8
  have hword : ∀ x : Nat, x &&& 65535 = x % 2 ^ 16 := fun x => Nat.and_two_pow_sub_one_eq_mod x 16
  have h0 := (buf a).toNat_lt; have h1 := (buf (a + 1)).toNat_lt
  have h2 := (buf (a + 2)).toNat_lt; have h3 := (buf (a + 3)).toNat_lt
  have hbytes : ((int32At buf a >>> 8) &&& 0xFFFF &&& 0xff).toUInt16 = (buf (a + 1)).toUInt16 ∧
      (((int32At buf a >>> 8) &&& 0xFFFF) >>> 8 &&& 0xff).toUInt16 = (buf (a + 2)).toUInt16 := by
    constructor
    all_goals
      refine UInt16.toNat_inj.mp ?_
      simp [int32At, load32, hbyte, hword, Nat.shiftRight_eq_div_pow]
      omega
  rw [lanePid, hbytes.1, hbytes.2]
  rfl

theorem extractPids8Avx2_eq (buf : Nat → UInt8) :
    tsaSimdExtractPids8Avx2 buf = extractPids8Scalar buf := by
  have hlanes : tsaSimdExtractPids8Avx2 buf = [0, 188, 376, 564, 752, 940, 1128, 1316].map
      fun a => lanePid ((int32At buf a >>> 8) &&& 0xFFFF) := rfl
  have hscalar : extractPids8Scalar buf = [0, 188, 376, 564, 752, 940, 1128, 1316].map
      fun a => (buf (a + 1) &&& 0x1f).toUInt16 <<< 8 ||| (buf (a + 2)).toUInt16 := rfl
  rw [hlanes, hscalar]
  exact map_congr_left fun a _ => lanePid_gathered buf a

/-- **The vectorised kernels compute what the scalar ones do**, at every address. -/
theorem simd_eq_scalar (addr : Nat) (buf : List UInt8) (packets : Nat → UInt8) :
    tsaSimdFindSyncAvx2 addr buf = findSyncScalar buf ∧
      tsaSimdFindSyncSse42 addr buf = findSyncScalar buf ∧
      tsaSimdExtractPids8Avx2 packets = extractPids8Scalar packets ∧
      tsaSimdExtractPids8Sse42 packets = extractPids8Scalar packets :=
  ⟨findSyncVec_eq 32 addr buf, findSyncVec_eq 16 addr buf, extractPids8Avx2_eq packets, rfl⟩

end TsAnalyzer.Simd
