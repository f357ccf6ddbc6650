/-
  Bit strings, the most significant bit first.  `number` is the inverse of `bigEndian`.
-/
import Mathlib

namespace TsAnalyzer.Lib

open List

/-- The low `n` bits of `c`. -/
def bigEndian : Nat → Nat → List Bool
  | 0, _ => []
  | n + 1, c => c.testBit n :: bigEndian n c

def number (bits : List Bool) : Nat := bits.foldl (fun acc b => 2 * acc + b.toNat) 0

def bitsOf (bytes : List UInt8) : List Bool := bytes.flatMap fun b => bigEndian 8 b.toNat

/-! ## Bits of a number -/

theorem join_eq_add {a b n : Nat} (h : b < 2 ^ n) : a <<< n ||| b = a * 2 ^ n + b := by
  rw [← Nat.shiftLeft_add_eq_or_of_lt h, Nat.shiftLeft_eq]

variable (n : Nat) (bytes : List UInt8) (bits : List Bool)

@[simp] theorem bigEndian_length (c : Nat) : (bigEndian n c).length = n := by
  induction n with
  | zero => rfl
  | succ n ih => rw [bigEndian, length_cons, ih]

theorem bigEndian_congr {n c d : Nat} (h : ∀ i < n, c.testBit i = d.testBit i) :
    bigEndian n c = bigEndian n d := by
  induction n with
  | zero => rfl
  | succ n ih =>
    rw [bigEndian, bigEndian, h n (Nat.lt_succ_self n)]
    rw [ih fun i hi => h i (Nat.lt_succ_of_lt hi)]

theorem bigEndian_zero : bigEndian n 0 = replicate n false := by
  induction n with
  | zero => rfl
  | succ n ih => rw [bigEndian, ih, Nat.zero_testBit, replicate_succ]

theorem bigEndian_add (m n c : Nat) :
    bigEndian (m + n) c = bigEndian m (c >>> n) ++ bigEndian n c := by
  induction m with
  | zero => rw [Nat.zero_add, bigEndian, nil_append]
  | succ m ih =>
    rw [Nat.succ_add, bigEndian, bigEndian, ih, cons_append]
    rw [Nat.testBit_shiftRight, Nat.add_comm n m]

/-- A shift appends: the bits of `c`, then those that take the free places. -/
theorem bigEndian_shift {m n c d : Nat} (hd : d < 2 ^ n) :
    bigEndian (m + n) (c <<< n ||| d) = bigEndian m c ++ bigEndian n d := by
  have hlow : ∀ i < n, (c <<< n ||| d).testBit i = d.testBit i := by
    intro i hi
    have hshift : (c <<< n).testBit i = false := by
      rw [Nat.testBit_shiftLeft, decide_eq_false (Nat.not_le_of_lt hi), Bool.false_and]
    rw [Nat.testBit_or, hshift, Bool.false_or]
  have hhigh : ∀ i < m, ((c <<< n ||| d) >>> n).testBit i = c.testBit i := by
    intro i _
    have hclear : d.testBit (n + i) = false :=
      Nat.testBit_lt_two_pow (Nat.lt_of_lt_of_le hd (Nat.pow_le_pow_right (by omega) (by omega)))
    rw [Nat.testBit_shiftRight, Nat.testBit_or, Nat.testBit_shiftLeft, hclear, Bool.or_false]
    rw [decide_eq_true (Nat.le_add_right n i), Bool.true_and, Nat.add_sub_cancel_left]
  rw [bigEndian_add, bigEndian_congr hlow, bigEndian_congr hhigh]

/-! ## Numbers of bits -/

@[simp] theorem number_nil : number [] = 0 := rfl

theorem number_snoc (b : Bool) : number (bits ++ [b]) = 2 * number bits + b.toNat := by
  rw [number, foldl_append]
  rfl

theorem number_append (more : List Bool) :
    number (bits ++ more) = number bits * 2 ^ more.length + number more := by
  induction more using reverseRecOn with
  | nil => rw [append_nil, length_nil, Nat.pow_zero, Nat.mul_one, number_nil, Nat.add_zero]
  | append_singleton more b ih =>
    rw [← append_assoc, number_snoc, ih, number_snoc, length_append, length_singleton]
    rw [Nat.pow_succ]
    ring

theorem number_cons (b : Bool) (bits : List Bool) :
    number (b :: bits) = b.toNat * 2 ^ bits.length + number bits := by
  have happend := number_append [b] bits
  have hone : number [b] = b.toNat := by rw [number, foldl_cons, foldl_nil, Nat.zero_add]
  rw [singleton_append, hone] at happend
  exact happend

theorem number_lt : number bits < 2 ^ bits.length := by
  induction bits with
  | nil => exact Nat.one_pos
  | cons b bits ih =>
    rw [number_cons, length_cons, Nat.pow_succ]
    cases b with
    | false =>
      rw [Bool.toNat_false]
      omega
    | true =>
      rw [Bool.toNat_true]
      omega

theorem number_bigEndian (c : Nat) : number (bigEndian n c) = c % 2 ^ n := by
  induction n with
  | zero => rw [bigEndian, number_nil, Nat.pow_zero, Nat.mod_one]
  | succ n ih =>
    rw [bigEndian, number_cons, bigEndian_length, ih, Nat.mod_pow_succ, Nat.toNat_testBit]
    rw [Nat.mul_comm, Nat.add_comm]

theorem number_bigEndian_of_lt {n c : Nat} (h : c < 2 ^ n) : number (bigEndian n c) = c := by
  rw [number_bigEndian, Nat.mod_eq_of_lt h]

theorem bigEndian_number : bigEndian bits.length (number bits) = bits := by
  induction bits using reverseRecOn with
  | nil => rfl
  | append_singleton bits b ih =>
    have hbit := Bool.toNat_le b
    have hhigh : (2 * number bits + b.toNat) >>> 1 = number bits := by
      rw [Nat.shiftRight_one]
      omega
    have hlow : (2 * number bits + b.toNat).testBit 0 = b := by
      rw [Nat.testBit_zero]
      cases b
      · exact decide_eq_false (by rw [Bool.toNat_false]; omega)
      · exact decide_eq_true (by rw [Bool.toNat_true]; omega)
    rw [length_append, length_singleton, bigEndian_add, number_snoc, hhigh, ih]
    rw [bigEndian, hlow, bigEndian]

/-! ## Bits of bytes -/

@[simp] theorem bitsOf_nil : bitsOf [] = [] := rfl

@[simp] theorem bitsOf_cons (b : UInt8) (bytes : List UInt8) :
    bitsOf (b :: bytes) = bigEndian 8 b.toNat ++ bitsOf bytes := flatMap_cons

theorem bitsOf_append (more : List UInt8) :
    bitsOf (bytes ++ more) = bitsOf bytes ++ bitsOf more := flatMap_append

@[simp] theorem bitsOf_length : (bitsOf bytes).length = 8 * bytes.length := by
  induction bytes with
  | nil => rfl
  | cons b bytes ih =>
    rw [bitsOf_cons, length_append, bigEndian_length, ih, length_cons]
    omega

end TsAnalyzer.Lib
