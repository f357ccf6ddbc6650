/-
  The bit reader as a LIST OF BITS.

  1. **Abstraction** — `Reader.bits`: the low `bits_left` bits of the cache, then the bits of the
     bytes not loaded yet.  What was consumed stays in the cache above them, and is never masked out.
  2. **Invariant** — `Reader.Full`: the cache was filled as far as it goes, so a request of at most
     57 bits that the cache cannot meet is one that the whole buffer cannot meet.
  3. **Specification** — `takeBits`: the next `n` bits as a number, or 0 where fewer are left.
-/
import TsAnalyzer.Bitstream.Reader
import TsAnalyzer.Lib.Bits

namespace TsAnalyzer.Bitstream

open Lib List

def Reader.bits (r : Reader) : List Bool := bigEndian r.bitsLeft r.cache ++ bitsOf r.rest

/-- The cache holds as much as it can. -/
structure Reader.Full (r : Reader) : Prop where
  fits : r.bitsLeft ≤ 64
  filled : r.rest = [] ∨ 56 < r.bitsLeft

/-- A filled reader with exactly `bits` left. -/
structure Reader.At (r : Reader) (bits : List Bool) : Prop where
  full : r.Full
  bits_eq : r.bits = bits

/-! ## Refill -/

theorem load_bits {cache bitsLeft : Nat} (b : UInt8) (h : bitsLeft ≤ 56) :
    bigEndian (bitsLeft + 8) ((cache <<< 8 ||| b.toNat) % 2 ^ 64) =
      bigEndian bitsLeft cache ++ bigEndian 8 b.toNat := by
  have hmod : ∀ i < bitsLeft + 8,
      ((cache <<< 8 ||| b.toNat) % 2 ^ 64).testBit i = (cache <<< 8 ||| b.toNat).testBit i := by
    intro i hi
    rw [Nat.testBit_mod_two_pow, decide_eq_true (by omega), Bool.true_and]
  rw [bigEndian_congr hmod, bigEndian_shift b.toNat_lt]

theorem refillLoop_at (rest : List UInt8) (cache bitsLeft ops : Nat) (h : bitsLeft ≤ 64) :
    (refillLoop rest cache bitsLeft ops).At (bigEndian bitsLeft cache ++ bitsOf rest) := by
  induction rest generalizing cache bitsLeft ops with
  | nil => exact ⟨⟨h, Or.inl rfl⟩, rfl⟩
  | cons b rest ih =>
    rw [refillLoop]
    split
    · rename_i hroom
      have hrest := ih ((cache <<< 8 ||| b.toNat) % 2 ^ 64) (bitsLeft + 8) (ops + 1) (by omega)
      rw [load_bits b hroom, append_assoc] at hrest
      rw [bitsOf_cons]
      exact hrest
    · rename_i hroom
      exact ⟨⟨h, Or.inr (Nat.lt_of_not_le hroom)⟩, rfl⟩

variable {r : Reader}

theorem brRefill_at (h : r.bitsLeft ≤ 64) : (brRefill r).At r.bits :=
  refillLoop_at r.rest r.cache r.bitsLeft (r.ops + 1) h

theorem brInit_at (buf : List UInt8) : (brInit buf).At (bitsOf buf) :=
  brRefill_at (Nat.zero_le 64)

/-! ## One call -/

theorem Reader.bits_length (r : Reader) : r.bits.length = r.bitsLeft + 8 * r.rest.length := by
  rw [Reader.bits, length_append, bigEndian_length, bitsOf_length]

variable {bits : List Bool} {n : Nat}

theorem Reader.At.enough (hr : r.At bits) (hn : n ≤ 57) (h : n ≤ bits.length) : n ≤ r.bitsLeft := by
  rw [← hr.bits_eq, Reader.bits_length] at h
  rcases hr.full.filled with hempty | hfilled
  · rw [hempty, length_nil] at h
    omega
  · omega

theorem Reader.At.bitsLeft_le (hr : r.At bits) : r.bitsLeft ≤ bits.length := by
  rw [← hr.bits_eq, Reader.bits_length]
  omega

theorem Reader.At.ticked (hr : r.At bits) (ops : Nat) :
    Reader.At { r with ops := ops } bits := ⟨⟨hr.full.fits, hr.full.filled⟩, hr.bits_eq⟩

/-- Where `n` bits are in the cache: the first `n`, and what follows them. -/
theorem Reader.At.split (hr : r.At bits) (h : n ≤ r.bitsLeft) :
    bits = bigEndian n (r.cache >>> (r.bitsLeft - n)) ++
      Reader.bits { r with bitsLeft := r.bitsLeft - n } := by
  have hsum : r.bitsLeft = n + (r.bitsLeft - n) := by omega
  have hcache : bigEndian r.bitsLeft r.cache =
      bigEndian n (r.cache >>> (r.bitsLeft - n)) ++ bigEndian (r.bitsLeft - n) r.cache := by
    rw [← bigEndian_add, ← hsum]
  rw [← hr.bits_eq, Reader.bits, hcache, append_assoc]
  rfl

variable {code rest : List Bool}

theorem Reader.At.split_eq
    (hr : r.At (code ++ rest)) (hcode : code.length = n) (h : n ≤ r.bitsLeft) :
    code = bigEndian n (r.cache >>> (r.bitsLeft - n)) ∧
      rest = Reader.bits { r with bitsLeft := r.bitsLeft - n } :=
  append_inj (hr.split h) (by rw [hcode, bigEndian_length])

theorem Reader.At.next_eq (hr : r.At (code ++ rest)) (hcode : code.length = n)
    (h : n ≤ r.bitsLeft) : r.next n = number code % 2 ^ 32 := by
  rw [(hr.split_eq hcode h).1, Reader.next, Nat.one_shiftLeft, Nat.and_two_pow_sub_one_eq_mod]
  rw [number_bigEndian]

theorem brSkip_at (hr : r.At (code ++ rest))
    (hcode : code.length = n) (hn : n ≤ 57) : (brSkip n r).2.At rest := by
  have hlen : n ≤ (code ++ rest).length := by
    rw [length_append]
    omega
  have hfits := hr.full.fits
  rw [(hr.split_eq hcode (hr.enough hn hlen)).2]
  exact brRefill_at (r := { r with bitsLeft := r.bitsLeft - n, ops := r.ops + 1 })
    (Nat.le_trans (Nat.sub_le _ _) hfits)

theorem brRead_at (hr : r.At (code ++ rest)) (hcode : code.length = n) (hn : n ≤ 57) :
    (brRead n r).1 = number code % 2 ^ 32 ∧ (brRead n r).2.At rest := by
  have hlen : n ≤ (code ++ rest).length := by
    rw [length_append]
    omega
  have henough := hr.enough hn hlen
  rw [brRead]
  split
  · rename_i hzero
    have hnil : code = [] := eq_nil_of_length_eq_zero (by omega)
    subst hnil
    exact ⟨rfl, hr.ticked _⟩
  · exact ⟨hr.next_eq hcode henough, brSkip_at hr hcode hn⟩

theorem brRead_short (hr : r.At bits)
    (h : bits.length < n) : (brRead n r).1 = 0 ∧ (brRead n r).2.At bits := by
  have hleft := hr.bitsLeft_le
  rw [brRead, if_pos (Or.inr (by omega))]
  exact ⟨rfl, hr.ticked _⟩

theorem brPeek_at (n : Nat) (hr : r.At bits) :
    (brPeek n r).2.At bits := hr.ticked _

/-! ## Every sequence of calls -/

/-- The reader's specification, on the list of bits that are left. -/
def takeBits (n : Nat) : StateM (List Bool) Nat := fun bits =>
  if n ≤ bits.length then (number (bits.take n), bits.drop n) else (0, bits)

theorem brRead_takeBits (hr : r.At bits) (hn : n ≤ 32) :
    (brRead n r).1 = (takeBits n bits).1 ∧ (brRead n r).2.At (takeBits n bits).2 := by
  rw [takeBits]
  split
  · rename_i hle
    have hcode : (bits.take n).length = n := by rw [length_take, Nat.min_eq_left hle]
    have hsplit : r.At (bits.take n ++ bits.drop n) := by rwa [take_append_drop]
    have hread := brRead_at hsplit hcode (by omega)
    have hlt := number_lt (bits.take n)
    rw [hcode] at hlt
    have hword : number (bits.take n) < 2 ^ 32 :=
      Nat.lt_of_lt_of_le hlt (Nat.pow_le_pow_right (by omega) hn)
    rw [Nat.mod_eq_of_lt hword] at hread
    exact hread
  · rename_i hle
    exact brRead_short hr (Nat.lt_of_not_le hle)

theorem reads_at (widths : List Nat) (hr : r.At bits) (hwidths : ∀ n ∈ widths, 1 ≤ n ∧ n ≤ 32) :
    (widths.mapM brRead r).1 = (widths.mapM takeBits bits).1 ∧
      (widths.mapM brRead r).2.At (widths.mapM takeBits bits).2 := by
  induction widths generalizing r bits with
  | nil => exact ⟨rfl, hr⟩
  | cons n widths ih =>
    obtain ⟨hvalue, hnext⟩ := brRead_takeBits hr (hwidths n mem_cons_self).2
    have hrest := ih hnext fun m hm => hwidths m (mem_cons_of_mem n hm)
    rw [mapM_cons, mapM_cons, bind_run, bind_run, bind_run, bind_run]
    exact ⟨congrArg₂ List.cons hvalue hrest.1, hrest.2⟩

/-- **The bit reader refines a bit list**: on every buffer, every sequence of calls with widths from
    1 to 32 returns what the same calls on the list of the buffer's bits return, and leaves what
    they leave. -/
theorem reads_refine (buf : List UInt8) (widths : List Nat)
    (hwidths : ∀ n ∈ widths, 1 ≤ n ∧ n ≤ 32) :
    (widths.mapM brRead (brInit buf)).1 = (widths.mapM takeBits (bitsOf buf)).1 ∧
      (widths.mapM brRead (brInit buf)).2.bits = (widths.mapM takeBits (bitsOf buf)).2 := by
  obtain ⟨hvalues, hleft⟩ := reads_at widths (brInit_at buf) hwidths
  exact ⟨hvalues, hleft.bits_eq⟩

/-- Two nibbles, a byte, more bits than are left, and the four that are. -/
theorem reads_refine_mixed :
    ([4, 4, 8, 4, 32, 4].mapM brRead (brInit [0xDE, 0xAD, 0xBE])).1 = [0xD, 0xE, 0xAD, 0xB, 0, 0xE] ∧
    ([4, 4, 8, 4, 32, 4].mapM brRead (brInit [0xDE, 0xAD, 0xBE])).1 =
      ([4, 4, 8, 4, 32, 4].mapM takeBits (bitsOf [0xDE, 0xAD, 0xBE])).1 :=
  ⟨by decide, (reads_refine [0xDE, 0xAD, 0xBE] [4, 4, 8, 4, 32, 4] (by decide)).1⟩

end TsAnalyzer.Bitstream
