/-
  Exp-Golomb codes (`br_read_ue`, `br_read_se` in `include/tsa_bitstream.h`).

  1. **Codes** — `ueCode v`: as many zeros as `v + 1` has bits below its highest, then `v + 1`.
     `seCode v`: the code of the place of `v` in 0, 1, -1, 2, -2, ...
  2. **Decoding** — `brReadUe_decodes`, `brReadSe_decodes`: wherever a code comes next, the reader
     returns its value and stops right after it.
-/
import TsAnalyzer.Bitstream.Refinement
import TsAnalyzer.Lib.Decoder

namespace TsAnalyzer.Bitstream

open Lib List

/-! ## Codes -/

def ueCode (v : Nat) : List Bool :=
  replicate (v + 1).log2 false ++ bigEndian ((v + 1).log2 + 1) (v + 1)

/-- The number of a signed value: 0, 1, -1, 2, -2, ... -/
def codeNum (v : Int) : Nat := if 0 < v then 2 * v.toNat - 1 else 2 * (-v).toNat

def seCode (v : Int) : List Bool := ueCode (codeNum v)

/-- The highest bit of `v + 1` ends the zeros. -/
theorem ueCode_eq (v : Nat) :
    ueCode v = replicate (v + 1).log2 false ++ ([true] ++ bigEndian (v + 1).log2 (v + 1)) := by
  have htop : (v + 1).testBit (v + 1).log2 = true := Nat.testBit_log2 (Nat.succ_ne_zero v)
  rw [ueCode, bigEndian, htop, singleton_append]

/-- What is left of `v + 1` without its highest bit. -/
theorem lowBits_number (v : Nat) :
    2 ^ (v + 1).log2 - 1 + number (bigEndian (v + 1).log2 (v + 1)) = v := by
  have hlow : 2 ^ (v + 1).log2 ≤ v + 1 := Nat.log2_self_le (Nat.succ_ne_zero v)
  have hhigh : v + 1 < 2 ^ ((v + 1).log2 + 1) := Nat.lt_log2_self
  have hmod : (v + 1) % 2 ^ (v + 1).log2 = v + 1 - 2 ^ (v + 1).log2 := by
    rw [Nat.mod_eq_sub_mod hlow, Nat.mod_eq_of_lt]
    rw [Nat.pow_succ] at hhigh
    omega
  have hpos := Nat.two_pow_pos (v + 1).log2
  rw [number_bigEndian, hmod]
  omega

/-- A value below `2^32 - 1` has at most 31 zeros. -/
theorem log2_le {v : Nat} (h : v ≤ 2 ^ 32 - 2) : (v + 1).log2 ≤ 31 := by
  have hlt : (v + 1).log2 < 32 := (Nat.log2_lt (Nat.succ_ne_zero v)).mpr (by omega)
  omega

/-! ## Zeros -/

theorem brPeek_one {r : Reader} {b : Bool} {rest : List Bool} (hr : r.At (b :: rest)) :
    0 < r.bitsLeft ∧ (brPeek 1 r).1 = b.toNat := by
  have hpos : 1 ≤ r.bitsLeft := hr.enough (by decide) (by rw [length_cons]; omega)
  refine ⟨hpos, ?_⟩
  have hone : r.At ([b] ++ rest) := hr
  have hnext : r.next 1 = number [b] % 2 ^ 32 := hone.next_eq rfl hpos
  rw [brPeek, if_neg (by omega), hnext]
  cases b <;> rfl

theorem brSkip_one {r : Reader} {b : Bool} {rest : List Bool} (hr : r.At (b :: rest)) :
    (brSkip 1 r).2.At rest := by
  have hone : r.At ([b] ++ rest) := hr
  exact brSkip_at hone rfl (by decide)

theorem zeroLoop_at (k more zeros : Nat) (r : Reader) (rest : List Bool) (hk : k ≤ more)
    (hr : r.At (replicate k false ++ true :: rest)) :
    (zeroLoop more zeros r).1 = zeros + k ∧ (zeroLoop more zeros r).2.At (true :: rest) := by
  induction k generalizing more zeros r rest with
  | zero =>
    obtain ⟨hpos, hpeek⟩ := brPeek_one hr
    cases more with
    | zero =>
      rw [zeroLoop_zero, if_pos hpos]
      exact ⟨rfl, brPeek_at 1 hr⟩
    | succ more =>
      have hone : (brPeek 1 r).1 ≠ 0 := by
        rw [hpeek]
        decide
      rw [zeroLoop_succ, if_pos hpos, if_neg hone]
      exact ⟨rfl, brPeek_at 1 hr⟩
  | succ k ih =>
    rw [replicate_succ, cons_append] at hr
    obtain ⟨hpos, hpeek⟩ := brPeek_one hr
    cases more with
    | zero => omega
    | succ more =>
      have hzero : (brPeek 1 r).1 = 0 := hpeek
      rw [zeroLoop_succ, if_pos hpos, if_pos hzero]
      have hskip := brSkip_one (brPeek_at 1 hr)
      have hrest := ih more (zeros + 1) _ rest (by omega) hskip
      rw [show zeros + (k + 1) = zeros + 1 + k by omega]
      exact hrest

/-! ## Values -/

theorem brReadUe_decodes {v : Nat} (hv : v ≤ 2 ^ 32 - 2) :
    Decodes Reader.At brReadUe (ueCode v) v := by
  intro r rest hr
  have hzeros := log2_le hv
  rw [ueCode_eq, append_assoc, append_assoc, singleton_append] at hr
  obtain ⟨hcount, hstop⟩ := zeroLoop_at (v + 1).log2 32 0 (tick r).2 _ (by omega) (hr.ticked _)
  obtain ⟨hpos, -⟩ := brPeek_one hstop
  rw [Nat.zero_add] at hcount
  have hskip := brSkip_one hstop
  obtain ⟨hvalue, hafter⟩ := brRead_at hskip (bigEndian_length (v + 1).log2 (v + 1)) (by omega)
  have hnumber := number_lt (bigEndian (v + 1).log2 (v + 1))
  rw [bigEndian_length] at hnumber
  have hword : number (bigEndian (v + 1).log2 (v + 1)) < 2 ^ 32 :=
    Nat.lt_of_lt_of_le hnumber (Nat.pow_le_pow_right (by omega) (by omega))
  have hsum := lowBits_number v
  have honce : onlyIf (0 < (zeroLoop 32 0 (tick r).2).2.bitsLeft) (brSkip 1) = brSkip 1 :=
    if_pos hpos
  rw [brReadUe, bind_run, bind_run, hcount, bind_run, get_run, bind_run, honce, bind_run, pure_run]
  rw [hvalue, shiftOne, Nat.mod_eq_of_lt (Nat.lt_succ_of_le hzeros), Nat.mod_eq_of_lt hword, hsum]
  exact ⟨Nat.mod_eq_of_lt (by omega), hafter⟩

theorem brReadSe_decodes {v : Int} (hlow : -(2 ^ 31 - 1) ≤ v) (hhigh : v ≤ 2 ^ 31 - 1) :
    Decodes Reader.At brReadSe (seCode v) v := by
  have hnum : codeNum v ≤ 2 ^ 32 - 2 := by
    rw [codeNum]
    split <;> omega
  have htick : Decodes Reader.At tick [] () := fun r _ hr => ⟨rfl, hr.ticked _⟩
  have hread := (brReadUe_decodes hnum).map fun ue =>
    if ue % 2 = 0 then -((ue / 2 : Nat) : Int) else (((ue + 1) % 2 ^ 32 / 2 : Nat) : Int)
  have hvalue : (if codeNum v % 2 = 0 then -((codeNum v / 2 : Nat) : Int)
      else (((codeNum v + 1) % 2 ^ 32 / 2 : Nat) : Int)) = v := by
    rw [codeNum]
    split <;> split <;> omega
  rw [hvalue] at hread
  exact htick.after hread

/-! ## At any position -/

theorem takeBits_drop (widths : List Nat) (bits : List Bool) (h : widths.sum ≤ bits.length) :
    (widths.mapM takeBits bits).2 = bits.drop widths.sum := by
  induction widths generalizing bits with
  | nil => rfl
  | cons n widths ih =>
    rw [sum_cons] at h
    have htake : takeBits n bits = (number (bits.take n), bits.drop n) := if_pos (by omega)
    have hrest := ih (bits.drop n) (by rw [length_drop]; omega)
    rw [drop_drop] at hrest
    rw [mapM_cons, bind_run, htake, sum_cons]
    exact hrest

/-- The reader of `buf` after reads of altogether as many bits as `before` has. -/
theorem reads_position {buf : List UInt8} {before rest : List Bool} {widths : List Nat}
    (hbuf : bitsOf buf = before ++ rest) (hwidths : ∀ n ∈ widths, 1 ≤ n ∧ n ≤ 32)
    (hsum : widths.sum = before.length) : (widths.mapM brRead (brInit buf)).2.At rest := by
  have hreads := (reads_at widths (brInit_at buf) hwidths).2
  have hlen : widths.sum ≤ (bitsOf buf).length := by
    rw [hbuf, length_append]
    omega
  rw [takeBits_drop widths _ hlen, hbuf, hsum, drop_left] at hreads
  exact hreads

/-- **Exp-Golomb round trip**: a ue(v) code of any value up to `2^32 - 2`, or a se(v) code of any
    value between `-(2^31 - 1)` and `2^31 - 1`, at any bit position of any buffer, is read back, and
    the reader stands exactly after it. -/
theorem expGolomb_roundTrip (buf : List UInt8) (before rest : List Bool) (widths : List Nat)
    (hwidths : ∀ n ∈ widths, 1 ≤ n ∧ n ≤ 32) (hsum : widths.sum = before.length) :
    (∀ v : Nat, v ≤ 2 ^ 32 - 2 → bitsOf buf = before ++ (ueCode v ++ rest) →
      (brReadUe (widths.mapM brRead (brInit buf)).2).1 = v ∧
        (brReadUe (widths.mapM brRead (brInit buf)).2).2.bits = rest) ∧
    (∀ v : Int, -(2 ^ 31 - 1) ≤ v → v ≤ 2 ^ 31 - 1 → bitsOf buf = before ++ (seCode v ++ rest) →
      (brReadSe (widths.mapM brRead (brInit buf)).2).1 = v ∧
        (brReadSe (widths.mapM brRead (brInit buf)).2).2.bits = rest) := by
  constructor
  · intro v hv hbuf
    obtain ⟨hvalue, hafter⟩ := brReadUe_decodes hv _ rest (reads_position hbuf hwidths hsum)
    exact ⟨hvalue, hafter.bits_eq⟩
  · intro v hlow hhigh hbuf
    obtain ⟨hvalue, hafter⟩ := brReadSe_decodes hlow hhigh _ rest (reads_position hbuf hwidths hsum)
    exact ⟨hvalue, hafter.bits_eq⟩

/-- 6 after three bits, -3 after three bits. -/
theorem expGolomb_roundTrip_three :
    (brReadUe ([3].mapM brRead (brInit [0xA7, 0x00])).2).1 = 6 ∧
    (brReadSe ([3].mapM brRead (brInit [0xA7, 0x00])).2).1 = -3 := by
  have h := expGolomb_roundTrip [0xA7, 0x00] [true, false, true] (replicate 8 false) [3]
    (by decide) (by decide)
  exact ⟨(h.1 6 (by decide) (by decide)).1, (h.2 (-3) (by decide) (by decide) (by decide)).1⟩

end TsAnalyzer.Bitstream
