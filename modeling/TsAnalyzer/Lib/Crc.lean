/-
  Cyclic redundancy checks, bit by bit, on a register of any width.

  A step is LINEAR in the register and the bit together (`crcStep_xor`), so what an error changes in
  the result depends on the error alone.  So an error in a window no longer than the register is
  seen (`crcFold_window`).
-/
import TsAnalyzer.Lib.Bits

namespace TsAnalyzer.Lib

open List

variable {w : Nat}

def crcStep (poly c : BitVec w) (bit : Bool) : BitVec w :=
  if c.msb ^^ bit then (c <<< 1) ^^^ poly else c <<< 1

/-- The bits of a string, one after the other. -/
def crcFold (poly c : BitVec w) (bits : List Bool) : BitVec w := bits.foldl (crcStep poly) c

@[simp] theorem crcFold_nil (poly c : BitVec w) : crcFold poly c [] = c := rfl

@[simp] theorem crcFold_cons (poly c : BitVec w) (b : Bool) (bits : List Bool) :
    crcFold poly c (b :: bits) = crcFold poly (crcStep poly c b) bits := rfl

theorem crcFold_append (poly c : BitVec w) (bits more : List Bool) :
    crcFold poly c (bits ++ more) = crcFold poly (crcFold poly c bits) more := foldl_append

/-! ## Linearity -/

theorem crcStep_xor (poly a b : BitVec w) (x y : Bool) :
    crcStep poly (a ^^^ b) (x ^^ y) = crcStep poly a x ^^^ crcStep poly b y := by
  have hcond : ((a ^^^ b).msb ^^ (x ^^ y)) = ((a.msb ^^ x) ^^ (b.msb ^^ y)) := by
    rw [BitVec.msb_xor]
    cases a.msb <;> cases b.msb <;> cases x <;> cases y <;> rfl
  have hcancel : a <<< 1 ^^^ poly ^^^ (b <<< 1 ^^^ poly) = a <<< 1 ^^^ b <<< 1 := by
    rw [BitVec.xor_comm (b <<< 1), BitVec.xor_assoc, ← BitVec.xor_assoc poly, BitVec.xor_self,
      BitVec.zero_xor]
  unfold crcStep
  rw [hcond, BitVec.shiftLeft_xor_distrib]
  -- The polynomial is added on both sides, on one, or on none.
  cases a.msb ^^ x <;> cases b.msb ^^ y
  · rfl
  · exact BitVec.xor_assoc _ _ _
  · show a <<< 1 ^^^ b <<< 1 ^^^ poly = a <<< 1 ^^^ poly ^^^ b <<< 1
    rw [BitVec.xor_assoc, BitVec.xor_comm (b <<< 1), ← BitVec.xor_assoc]
  · exact hcancel.symm

theorem crcFold_xor (poly : BitVec w) (xs ys : List Bool) (a b : BitVec w)
    (hlen : xs.length = ys.length) :
    crcFold poly (a ^^^ b) (zipWith (· ^^ ·) xs ys) =
      crcFold poly a xs ^^^ crcFold poly b ys := by
  induction xs generalizing ys a b with
  | nil =>
    have hnil : ys = [] := eq_nil_of_length_eq_zero hlen.symm
    subst hnil
    rfl
  | cons x xs ih =>
    cases ys with
    | nil => cases hlen
    | cons y ys =>
      rw [zipWith_cons_cons, crcFold_cons, crcFold_cons, crcFold_cons, crcStep_xor]
      exact ih ys _ _ (Nat.succ.inj hlen)

/-! ## Zeros -/

theorem crcStep_zero (poly : BitVec w) : crcStep poly 0#w false = 0#w := by
  rw [crcStep, BitVec.msb_zero, Bool.xor_false, if_neg Bool.false_ne_true, BitVec.zero_shiftLeft]

theorem crcFold_zero (poly : BitVec w) (n : Nat) : crcFold poly 0#w (replicate n false) = 0#w := by
  induction n with
  | zero => rfl
  | succ n ih => rw [replicate_succ, crcFold_cons, crcStep_zero, ih]

theorem eq_zero_of_shift {c : BitVec w} (hmsb : c.msb = false) (h : c <<< 1 = 0#w) : c = 0#w := by
  apply BitVec.eq_of_getLsbD_eq
  intro i hi
  rw [BitVec.getLsbD_zero]
  by_cases hlast : i + 1 = w
  · rw [BitVec.msb_eq_getLsbD_last] at hmsb
    rwa [show w - 1 = i by omega] at hmsb
  · have hbit : (c <<< 1).getLsbD (i + 1) = false := by rw [h, BitVec.getLsbD_zero]
    rw [BitVec.getLsbD_shiftLeft, decide_eq_true (by omega : i + 1 < w)] at hbit
    rw [decide_eq_false (by omega : ¬ i + 1 < 1), Nat.add_sub_cancel] at hbit
    exact hbit

variable {poly : BitVec w}

theorem eq_zero_of_step {c : BitVec w} (hpoly : poly.getLsbD 0 = true)
    (h : crcStep poly c false = 0#w) : c = 0#w := by
  rw [crcStep, Bool.xor_false] at h
  split at h
  · have hbit : (c <<< 1 ^^^ poly).getLsbD 0 = false := by rw [h, BitVec.getLsbD_zero]
    rw [BitVec.getLsbD_xor, hpoly, BitVec.getLsbD_shiftLeft] at hbit
    simp at hbit
  · rename_i hmsb
    exact eq_zero_of_shift (Bool.eq_false_of_not_eq_true hmsb) h

theorem eq_zero_of_zeros {c : BitVec w} (hpoly : poly.getLsbD 0 = true) {n : Nat}
    (h : crcFold poly c (replicate n false) = 0#w) : c = 0#w := by
  induction n generalizing c with
  | zero => exact h
  | succ n ih =>
    rw [replicate_succ, crcFold_cons] at h
    exact eq_zero_of_step hpoly (ih h)

/-! ## A register fed its own bits -/

/-- After its own `k` highest bits a register has moved up by `k` places. -/
theorem crcFold_top (poly c : BitVec w) : ∀ k ≤ w,
    crcFold poly c (bigEndian k (c.toNat >>> (w - k))) = c <<< k := by
  intro k
  induction k with
  | zero =>
    intro _
    rw [bigEndian, crcFold_nil, BitVec.shiftLeft_zero]
  | succ k ih =>
    intro hk
    have hsplit : bigEndian (k + 1) (c.toNat >>> (w - (k + 1))) =
        bigEndian k (c.toNat >>> (w - k)) ++ [(c <<< k).msb] := by
      rw [bigEndian_add, ← Nat.shiftRight_add, show w - (k + 1) + 1 = w - k by omega]
      rw [bigEndian, bigEndian, Nat.testBit_shiftRight, Nat.add_zero]
      rw [BitVec.msb_eq_getLsbD_last, BitVec.getLsbD_shiftLeft, BitVec.getLsbD]
      rw [decide_eq_true (by omega : w - 1 < w), decide_eq_false (by omega : ¬ w - 1 < k)]
      rw [show w - 1 - k = w - (k + 1) by omega]
      rfl
    rw [hsplit, crcFold_append, ih (by omega), crcFold_cons, crcFold_nil, crcStep, Bool.xor_self]
    rw [if_neg Bool.false_ne_true, ← BitVec.shiftLeft_add]

theorem crcFold_own (poly c : BitVec w) : crcFold poly c (bigEndian w c.toNat) = 0#w := by
  have htop := crcFold_top poly c w (Nat.le_refl w)
  rw [Nat.sub_self, Nat.shiftRight_zero, BitVec.shiftLeft_eq_zero (Nat.le_refl w)] at htop
  exact htop

/-! ## Errors -/

theorem zipWith_zeros : ∀ e : List Bool,
    zipWith (· ^^ ·) (replicate e.length false) e = e := by
  intro e
  induction e with
  | nil => rfl
  | cons b e ih =>
    rw [length_cons, replicate_succ, zipWith_cons_cons, ih, Bool.false_xor]

theorem crcFold_split (poly c : BitVec w) (e : List Bool) :
    crcFold poly c e = crcFold poly c (replicate e.length false) ^^^ crcFold poly 0#w e := by
  have hxor := crcFold_xor poly (replicate e.length false) e c 0#w length_replicate
  rw [zipWith_zeros, BitVec.xor_zero] at hxor
  exact hxor

variable {e : List Bool}

theorem crcFold_full (hpoly : poly.getLsbD 0 = true)
    (hlen : e.length = w) (h : crcFold poly 0#w e = 0#w) : e = replicate w false := by
  -- Feeding `e` to the register whose bits are `e` empties it.
  obtain ⟨c, hc⟩ : ∃ c : BitVec w, bigEndian w c.toNat = e := by
    refine ⟨BitVec.ofNat w (number e), ?_⟩
    rw [BitVec.toNat_ofNat, ← hlen, Nat.mod_eq_of_lt (number_lt e), bigEndian_number]
  have hown := crcFold_own poly c
  rw [hc, crcFold_split, h, BitVec.xor_zero] at hown
  have hzero : c = 0#w := eq_zero_of_zeros hpoly hown
  rw [← hc, hzero, BitVec.toNat_ofNat, Nat.zero_mod, bigEndian_zero]

theorem crcFold_short (hpoly : poly.getLsbD 0 = true)
    (hlen : e.length ≤ w) (h : crcFold poly 0#w e = 0#w) : true ∉ e := by
  intro htrue
  have hfill : crcFold poly 0#w (e ++ replicate (w - e.length) false) = 0#w := by
    rw [crcFold_append, h, crcFold_zero]
  have hzeros := crcFold_full hpoly (by rw [length_append, length_replicate]; omega) hfill
  have hmem := mem_append_left (replicate (w - e.length) false) htrue
  rw [hzeros] at hmem
  exact Bool.false_ne_true (eq_of_mem_replicate hmem).symm

theorem eq_zeros_of_getElem (h : ∀ i : Nat, e[i]? ≠ some true) : e = replicate e.length false := by
  apply eq_replicate_of_mem
  intro b hb
  obtain ⟨i, hi⟩ := mem_iff_getElem?.mp hb
  cases b with
  | false => rfl
  | true => exact absurd hi (h i)

/-- **An error is seen** when all of it lies in a window no longer than the register, wherever in a
    string of any length the window is. -/
theorem crcFold_window (hpoly : poly.getLsbD 0 = true) {a : Nat}
    (hwindow : ∀ i : Nat, e[i]? = some true → a ≤ i ∧ i < a + w) (h : crcFold poly 0#w e = 0#w) :
    ∀ i : Nat, e[i]? ≠ some true := by
  have hbefore : e.take a = replicate (e.take a).length false := by
    apply eq_zeros_of_getElem
    intro i hi
    rw [getElem?_take] at hi
    split at hi
    · have := hwindow i hi
      omega
    · cases hi
  have hafter : (e.drop a).drop w = replicate ((e.drop a).drop w).length false := by
    apply eq_zeros_of_getElem
    intro i hi
    rw [getElem?_drop, getElem?_drop] at hi
    have := hwindow _ hi
    omega
  -- Before the window nothing happens, after it nothing is forgotten.
  have hparts : e = e.take a ++ ((e.drop a).take w ++ (e.drop a).drop w) := by
    rw [take_append_drop, take_append_drop]
  rw [hparts, crcFold_append, crcFold_append, hbefore, crcFold_zero, hafter] at h
  have hin := crcFold_short hpoly (length_take_le w _) (eq_zero_of_zeros hpoly h)
  intro i hi
  obtain ⟨hle, hlt⟩ := hwindow i hi
  apply hin
  apply mem_iff_getElem?.mpr
  refine ⟨i - a, ?_⟩
  rw [getElem?_take, if_pos (by omega), getElem?_drop, Nat.add_sub_cancel' hle, hi]

end TsAnalyzer.Lib
