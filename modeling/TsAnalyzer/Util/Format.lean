/-
  The decimal printer of the metrics (`tsa_fast_itoa`, `src/tsa_utils.c`): it writes the digits
  backwards, with the sign behind them, and then swaps them around in place.
-/
import TsAnalyzer.Lib.Text

namespace TsAnalyzer.Util

open Lib List

def digitChar (d : Nat) : UInt8 := UInt8.ofNat (d + 48)

/-- `while (v > 0)`: the digits behind what is in `buf`, the last one first. -/
def digitLoop (buf : Text) (v : Nat) : Text :=
  if 0 < v then digitLoop (buf ++ [digitChar (v % 10)]) (v / 10) else buf
termination_by v
decreasing_by omega

/-- Turn `j` of the reversal. -/
def swapEnds (buf : Text) (j : Nat) : Text :=
  (buf.set j (buf.getD (buf.length - 1 - j) 0)).set (buf.length - 1 - j) (buf.getD j 0)

/-- `tsa_fast_itoa`: what it leaves in the buffer, and the length it returns. -/
def tsaFastItoa (val : Int64) : Text × Nat :=
  if val = 0 then ([48, 0], 1)
  else
    let v := (if val < 0 then -val else val).toUInt64
    let buf := digitLoop [] v.toNat
    let buf := if val < 0 then buf ++ [45] else buf
    let buf := (List.range (buf.length / 2)).foldl swapEnds buf
    (buf ++ [0], buf.length)

/-- The decimal representation. -/
def decimal (v : Int) : Text :=
  if v = 0 then [48]
  else (if v < 0 then [45] else []) ++ ((Nat.digits 10 v.natAbs).map digitChar).reverse

theorem digitLoop_eq (buf : Text) (v : Nat) :
    digitLoop buf v = buf ++ (Nat.digits 10 v).map digitChar := by
  fun_induction digitLoop buf v with
  | case1 buf v hv ih => rw [ih, Nat.digits_def' (by decide) hv, map_cons, append_assoc]; rfl
  | case2 buf v hv =>
    obtain rfl : v = 0 := by omega
    rw [Nat.digits_zero, map_nil, append_nil]

/-- After `k` turns the `k` characters at either end are in place. -/
theorem swaps_getElem? (s : Text) : ∀ k ≤ s.length / 2,
    ((List.range k).foldl swapEnds s).length = s.length ∧
      ∀ x < s.length, ((List.range k).foldl swapEnds s)[x]? =
        if x < k ∨ s.length - k ≤ x then s[s.length - 1 - x]? else s[x]? := by
  intro k
  induction k with
  | zero => exact fun _ => ⟨rfl, fun x hx => (if_neg (by omega)).symm⟩
  | succ k ih =>
    intro hk
    obtain ⟨hlen, hget⟩ := ih (by omega)
    rw [range_succ, foldl_append, foldl_cons, foldl_nil]
    generalize (List.range k).foldl swapEnds s = t at hlen hget
    refine ⟨by rw [swapEnds, length_set, length_set, hlen], fun x hx => ?_⟩
    have hsome : ∀ y < s.length, some (s[y]?.getD 0) = s[y]? := by
      intro y hy
      rw [getElem?_eq_getElem hy, Option.getD_some]
    have hk' := hget k (by omega)
    have hlast := hget (s.length - 1 - k) (by omega)
    rw [if_neg (by omega)] at hk' hlast
    simp only [swapEnds, getElem?_set, length_set, hlen, getD_eq_getElem?_getD, hk', hlast]
    by_cases hend : s.length - 1 - k = x
    · subst hend
      rw [if_pos rfl, if_pos hx, hsome k (by omega), if_pos (.inr (by omega))]
      congr 1
      omega
    · by_cases hfirst : k = x
      · subst hfirst
        rw [if_neg hend, if_pos rfl, if_pos hx, hsome _ (by omega), if_pos (.inl (by omega))]
      · rw [if_neg hend, if_neg hfirst, hget x hx]
        congr 1
        rw [eq_iff_iff]
        omega

theorem swaps_reverse (s : Text) :
    (List.range (s.length / 2)).foldl swapEnds s = s.reverse := by
  obtain ⟨hlen, hget⟩ := swaps_getElem? s _ (Nat.le_refl _)
  apply ext_getElem?
  intro x
  by_cases hx : x < s.length
  · rw [hget x hx, getElem?_reverse hx]
    split
    · rfl
    · congr 1
      omega
  · rw [getElem?_eq_none (by omega), getElem?_eq_none (by rw [length_reverse]; omega)]

theorem magnitude (val : Int64) :
    (if val < 0 then -val else val).toUInt64.toNat = val.toInt.natAbs := by
  have hint : val.toInt = if 2 * val.toUInt64.toNat < 2 ^ 64 then (val.toUInt64.toNat : Int)
      else val.toUInt64.toNat - (2 ^ 64 : Nat) := val.toBitVec.toInt_eq_toNat_cond
  have hlt := val.toUInt64.toNat_lt
  have hneg : val < 0 ↔ val.toInt < 0 := Int64.lt_iff_toInt_lt
  by_cases h : val < 0
  · have hneg := hneg.mp h
    rw [if_pos h, Int64.toUInt64_neg, UInt64.toNat_neg]
    show (2 ^ 64 - val.toUInt64.toNat) % 2 ^ 64 = _
    split at hint <;> omega
  · rw [hneg] at h
    rw [if_neg (fun h' => h (hneg.mp h'))]
    split at hint <;> omega

/-- **All that `tsa_fast_itoa` does**: the decimal representation and a NUL. -/
theorem fastItoa_spec (val : Int64) :
    tsaFastItoa val = (decimal val.toInt ++ [0], (decimal val.toInt).length) := by
  rw [tsaFastItoa, decimal]
  by_cases hzero : val = 0
  · subst hzero
    rfl
  · have hne : val.toInt ≠ 0 := fun h => hzero (Int64.toInt_inj.mp h)
    have hneg : val < 0 ↔ val.toInt < 0 := Int64.lt_iff_toInt_lt
    rw [if_neg hzero, if_neg hne]
    simp only [magnitude, digitLoop_eq, nil_append, swaps_reverse]
    by_cases h : val < 0
    · rw [if_pos h, if_pos (hneg.mp h), reverse_append]
      rfl
    · rw [if_neg h, if_neg (fun h' => h (hneg.mpr h'))]
      rfl

theorem decimal_length (val : Int64) : (decimal val.toInt).length ≤ 20 := by
  have hlow := val.le_toInt
  have hhigh := val.toInt_lt
  have hdigits : (Nat.digits 10 val.toInt.natAbs).length ≤ 19 :=
    (Nat.digits_length_le_iff (by decide) _).mpr (by omega)
  rw [decimal]
  split
  · decide
  · rw [length_append, length_reverse, length_map]
    split
    · rw [length_singleton]
      omega
    · rw [length_nil]
      omega

theorem digit_range {n : Nat} {c : UInt8} (h : c ∈ ((Nat.digits 10 n).map digitChar).reverse) :
    48 ≤ c ∧ c ≤ 57 := by
  rw [mem_reverse] at h
  obtain ⟨d, hd, rfl⟩ := mem_map.mp h
  have hlt : d < 10 := Nat.digits_lt_base (by decide) hd
  interval_cases d <;> decide

theorem foldr_digits {ds : List Nat} (h : ∀ d ∈ ds, d < 10) :
    (ds.map digitChar).foldr (fun c (n : Int) => n * 10 + (c.toNat - 48 : Nat)) 0 =
      (Nat.ofDigits 10 ds : ℕ) := by
  induction ds with
  | nil => rfl
  | cons d ds ih =>
    have hd : (digitChar d).toNat - 48 = d := by
      have hlt := h d mem_cons_self
      rw [digitChar, UInt8.toNat_ofNat']
      omega
    rw [map_cons, foldr_cons, ih fun x hx => h x (mem_cons_of_mem d hx), hd, Nat.ofDigits_cons]
    push_cast
    ring

/-- The digits, as `atoll` reads them. -/
theorem read_digits (n : Nat) :
    (((Nat.digits 10 n).map digitChar).reverse.takeWhile fun c => 48 ≤ c ∧ c ≤ 57).foldl
      (fun (n : Int) c => n * 10 + (c.toNat - 48 : Nat)) 0 = n := by
  rw [takeWhile_eq_self_iff.mpr fun c hc => decide_eq_true (digit_range hc), foldl_reverse,
    foldr_digits fun d hd => Nat.digits_lt_base (by decide) hd, Nat.ofDigits_digits]

theorem atoll_decimal (val : Int64) : atoll (decimal val.toInt) = val.toInt := by
  have hlow := val.le_toInt
  have hhigh := val.toInt_lt
  have hread := read_digits val.toInt.natAbs
  have hdigit : ∀ c ∈ ((Nat.digits 10 val.toInt.natAbs).map digitChar).reverse, 48 ≤ c ∧ c ≤ 57 :=
    fun c hc => digit_range hc
  rw [decimal]
  generalize ((Nat.digits 10 val.toInt.natAbs).map digitChar).reverse = ds at hread hdigit
  split
  · rename_i hzero
    rw [hzero]
    rfl
  · split
    · show max (-((ds.takeWhile _).foldl _ 0)) (-(2 ^ 63)) = _
      rw [hread]
      omega
    · cases ds with
      | nil =>
        have hnil : (0 : Int) = val.toInt.natAbs := hread
        omega
      | cons c cs =>
        have hc := (hdigit c mem_cons_self).1
        have hplain : ¬ (c = 32 ∨ (9 ≤ c ∧ c ≤ 13)) ∧ c ≠ 45 ∧ c ≠ 43 := by
          simp only [UInt8.le_iff_toNat_le, ne_eq, ← UInt8.toNat_inj] at hc ⊢
          simp at hc ⊢
          omega
        simp only [atoll, nil_append, dropWhile_cons, hplain.1, decide_false, Bool.false_eq_true,
          if_false, head?_cons, Option.some.injEq, hplain.2.1, hplain.2.2, or_self]
        rw [hread]
        omega

/-- **A decimal printer**, for every value. -/
theorem fastItoa_decimal (val : Int64) : ∃ text n, tsaFastItoa val = (text, n) ∧ n ≤ 20 ∧
    text.take n = decimal val.toInt ∧ text[n]? = some 0 ∧ atoll (text.take n) = val.toInt := by
  refine ⟨_, _, fastItoa_spec val, decimal_length val, take_left, ?_, ?_⟩
  · rw [getElem?_append_right (Nat.le_refl _), Nat.sub_self]
    rfl
  · rw [take_left, atoll_decimal]

end TsAnalyzer.Util
