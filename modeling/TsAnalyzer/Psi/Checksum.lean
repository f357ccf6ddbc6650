/-
  The section checksum (`mpegts_crc32` in `src/tsa_utils.c`) as an ERROR-DETECTING CODE.

  The register fed its own 32 bits is empty; flipped bits act on it as a string of their own, and no
  such string within 32 consecutive bits empties it.
-/
import TsAnalyzer.Lib.Bytes
import TsAnalyzer.Lib.Crc
import TsAnalyzer.Psi.Section

namespace TsAnalyzer.Psi

open Lib List

def crcPoly : BitVec 32 := 0x04c11db7

theorem crcByte_eq (crc : BitVec 32) (b : UInt8) :
    (range 8).foldl (fun crc j => crcBit crc (b.toNat.testBit (7 - j))) crc =
      crcFold crcPoly crc (bigEndian 8 b.toNat) := rfl

theorem crcBytes_eq (bytes : List UInt8) (crc : BitVec 32) :
    bytes.foldl (fun crc b => crcFold crcPoly crc (bigEndian 8 b.toNat)) crc =
      crcFold crcPoly crc (bitsOf bytes) := by
  induction bytes generalizing crc with
  | nil => rfl
  | cons b bytes ih => rw [foldl_cons, ih, bitsOf_cons, crcFold_append]

theorem mpegtsCrc32_eq (d : Nat → UInt8) (l : Nat) :
    mpegtsCrc32 d l = crcFold crcPoly 0xffffffff#32 (bitsOf (bytesAt d 0 l)) := by
  rw [← crcBytes_eq, bytesAt, foldl_map, mpegtsCrc32]
  simp only [crcByte_eq, Nat.zero_add]
  rfl

/-! ## Strings -/

def crcOf (s : List UInt8) : BitVec 32 := mpegtsCrc32 (fun i => s.getD i 0) s.length

/-- The bytes of a checksum, as a section carries them. -/
def crcField (crc : BitVec 32) : List UInt8 :=
  [UInt8.ofNat (crc.toNat >>> 24), UInt8.ofNat (crc.toNat >>> 16), UInt8.ofNat (crc.toNat >>> 8),
    UInt8.ofNat crc.toNat]

/-- `s'` is `s` with some bits flipped, all of them among the `n` bits from bit `a` on. -/
structure Flipped (a n : Nat) (s s' : List UInt8) : Prop where
  length_eq : s'.length = s.length
  flipped : bitsOf s' ≠ bitsOf s
  within : ∀ i : Nat, (bitsOf s')[i]? ≠ (bitsOf s)[i]? → a ≤ i ∧ i < a + n

theorem bytesAt_getD (s : List UInt8) : bytesAt (fun i => s.getD i 0) 0 s.length = s := by
  apply ext_getElem
  · rw [bytesAt, length_map, length_range]
  · intro i hi hs
    simp only [bytesAt, getElem_map, getElem_range, Nat.zero_add]
    exact getD_eq_getElem s 0 hs

theorem crcOf_eq (s : List UInt8) : crcOf s = crcFold crcPoly 0xffffffff#32 (bitsOf s) := by
  rw [crcOf, mpegtsCrc32_eq, bytesAt_getD]

theorem bigEndian_byte (c : Nat) : bigEndian 8 (UInt8.ofNat c).toNat = bigEndian 8 c := by
  apply bigEndian_congr
  intro i hi
  rw [UInt8.toNat_ofNat', Nat.testBit_mod_two_pow, decide_eq_true hi, Bool.true_and]

theorem bitsOf_crcField (crc : BitVec 32) : bitsOf (crcField crc) = bigEndian 32 crc.toNat := by
  have h24 : bigEndian 32 crc.toNat = bigEndian 8 (crc.toNat >>> 24) ++ bigEndian 24 crc.toNat :=
    bigEndian_add 8 24 _
  have h16 : bigEndian 24 crc.toNat = bigEndian 8 (crc.toNat >>> 16) ++ bigEndian 16 crc.toNat :=
    bigEndian_add 8 16 _
  have h8 : bigEndian 16 crc.toNat = bigEndian 8 (crc.toNat >>> 8) ++ bigEndian 8 crc.toNat :=
    bigEndian_add 8 8 _
  rw [h24, h16, h8, crcField, bitsOf_cons, bitsOf_cons, bitsOf_cons, bitsOf_cons, bitsOf_nil]
  rw [bigEndian_byte, bigEndian_byte, bigEndian_byte, bigEndian_byte, append_nil]

theorem crcOf_crcField (d : List UInt8) : crcOf (d ++ crcField (crcOf d)) = 0#32 := by
  rw [crcOf_eq, bitsOf_append, crcFold_append, ← crcOf_eq, bitsOf_crcField, crcFold_own]

/-! ## Errors -/

def errors (s s' : List UInt8) : List Bool := zipWith (· ^^ ·) (bitsOf s) (bitsOf s')

theorem crcOf_errors {s s' : List UInt8} (hlen : s'.length = s.length) :
    crcFold crcPoly 0#32 (errors s s') = crcOf s ^^^ crcOf s' := by
  have hbits : (bitsOf s).length = (bitsOf s').length := by rw [bitsOf_length, bitsOf_length, hlen]
  rw [crcOf_eq, crcOf_eq, ← crcFold_xor crcPoly _ _ _ _ hbits, BitVec.xor_self]
  rfl

theorem errors_eq_true {s s' : List UInt8} (hlen : s'.length = s.length) (i : Nat) :
    (errors s s')[i]? = some true ↔ (bitsOf s')[i]? ≠ (bitsOf s)[i]? := by
  have hbits : (bitsOf s').length = (bitsOf s).length := by rw [bitsOf_length, bitsOf_length, hlen]
  rw [errors, getElem?_zipWith]
  by_cases hi : i < (bitsOf s).length
  · rw [getElem?_eq_getElem hi, getElem?_eq_getElem (by omega)]
    cases (bitsOf s)[i] <;> cases (bitsOf s')[i] <;> simp
  · rw [getElem?_eq_none (by omega), getElem?_eq_none (by omega)]
    simp

theorem crcOf_flipped {a n : Nat} {s s' : List UInt8} (hn : n ≤ 32) (hs : crcOf s = 0#32)
    (hflip : Flipped a n s s') : crcOf s' ≠ 0#32 := by
  intro hs'
  have hlen := hflip.length_eq
  have hzero : crcFold crcPoly 0#32 (errors s s') = 0#32 := by
    rw [crcOf_errors hlen, hs, hs', BitVec.xor_self]
  have hwindow : ∀ i : Nat, (errors s s')[i]? = some true → a ≤ i ∧ i < a + 32 := by
    intro i hi
    have := hflip.within i ((errors_eq_true hlen i).mp hi)
    omega
  have hnone := crcFold_window (by decide) hwindow hzero
  apply hflip.flipped
  apply ext_getElem?
  intro i
  by_contra hne
  exact hnone i ((errors_eq_true hlen i).mpr hne)

/-- **`mpegts_crc32` is a sound checksum**: a string followed by its own checksum checks, and one
    that checks does so no more when any bits within 32 consecutive ones are flipped. -/
theorem mpegtsCrc32_sound :
    (∀ d : List UInt8, crcOf (d ++ crcField (crcOf d)) = 0#32) ∧
    (∀ (a n : Nat) (s s' : List UInt8), n ≤ 32 → crcOf s = 0#32 → Flipped a n s s' →
      crcOf s' ≠ 0#32) :=
  ⟨crcOf_crcField, fun _ _ _ _ => crcOf_flipped⟩

/-- A byte and its checksum, and the same with bits 7 and 38 flipped. -/
theorem mpegtsCrc32_sound_byte :
    crcOf [0x02, 0x47, 0x8a, 0x84, 0xda] = 0#32 ∧ crcOf [0x03, 0x47, 0x8a, 0x84, 0xd8] ≠ 0#32 := by
  have hvalid : crcOf [0x02, 0x47, 0x8a, 0x84, 0xda] = 0#32 := by decide +kernel
  have hinside : ∀ i < 40, (bitsOf [0x03, 0x47, 0x8a, 0x84, 0xd8])[i]? ≠
      (bitsOf [0x02, 0x47, 0x8a, 0x84, 0xda])[i]? → 7 ≤ i ∧ i < 7 + 32 := by decide +kernel
  refine ⟨hvalid, mpegtsCrc32_sound.2 7 32 _ _ (by decide) hvalid ⟨rfl, by decide, ?_⟩⟩
  intro i hi
  apply hinside i _ hi
  by_contra hout
  exact hi (by rw [getElem?_eq_none (by simpa using hout),
    getElem?_eq_none (by simpa using hout)])

end TsAnalyzer.Psi
