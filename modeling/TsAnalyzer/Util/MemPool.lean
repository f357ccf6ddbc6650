/-
  The memory pool of a handle (`tsa_mem_pool_alloc`, `src/tsa.c`): blocks one behind the other, each
  at a multiple of 64.

  The room is tested by `al + sz > pool_size`, a sum that WRAPS: a request near `SIZE_MAX` is
  granted.  A handle without a pool is not modelled.
-/
import TsAnalyzer.Lib.Run

namespace TsAnalyzer.Util

open Lib List

structure MemPool where
  size : Nat
  offset : Nat

/-- `(h->pool_offset + 63) & ~63`. -/
def alignUp (offset : Nat) : Nat := (offset + 63) % 2 ^ 64 / 64 * 64

/-- `tsa_mem_pool_alloc`: the offset of the block. -/
def tsaMemPoolAlloc (h : MemPool) (sz : Nat) : MemPool × Option Nat :=
  let al := alignUp h.offset
  if (al + sz) % 2 ^ 64 > h.size then (h, none)
  else ({ h with offset := (al + if sz > 64 then sz else 64) % 2 ^ 64 }, some al)

/-- A block, with the size that was asked for. -/
structure Block where
  start : Nat
  len : Nat
  deriving DecidableEq

def allocPush (h : MemPool) (sz : UInt64) : MemPool × List Block :=
  let r := tsaMemPoolAlloc h sz.toNat
  (r.1, (r.2.map (⟨·, sz.toNat⟩)).toList)

/-- The blocks that a pool of this size hands out. -/
def blocksOf (size : UInt64) (requests : List UInt64) : List Block :=
  (run allocPush ⟨size.toNat, 0⟩ requests).2

/-- **Disjoint allocation**: blocks lie in the pool, at multiples of 64, and do not overlap. -/
structure Sound (size : Nat) (blocks : List Block) : Prop where
  inside : ∀ b ∈ blocks, b.start + b.len ≤ size
  aligned : ∀ b ∈ blocks, 64 ∣ b.start
  disjoint : blocks.Pairwise fun a b =>
    ∀ x, a.start ≤ x ∧ x < a.start + a.len → ¬ (b.start ≤ x ∧ x < b.start + b.len)

/-- A request that is granted wraps no sum. -/
def NoWrap (h : MemPool) (sz : UInt64) : Prop :=
  ¬ (alignUp h.offset + sz.toNat) % 2 ^ 64 > h.size →
    h.offset + 63 < 2 ^ 64 ∧ alignUp h.offset + max sz.toNat 64 < 2 ^ 64

variable {h : MemPool} {sz : UInt64}

theorem allocPush_refused (hroom : (alignUp h.offset + sz.toNat) % 2 ^ 64 > h.size) :
    allocPush h sz = (h, []) := by
  simp only [allocPush, tsaMemPoolAlloc, if_pos hroom, Option.map_none, Option.toList_none]

/-- Where no sum wraps, a block is taken behind the offset, and the offset moves behind it. -/
theorem allocPush_granted (hroom : ¬ (alignUp h.offset + sz.toNat) % 2 ^ 64 > h.size)
    (hno : NoWrap h sz) :
    allocPush h sz = (⟨h.size, alignUp h.offset + max sz.toNat 64⟩,
        [⟨alignUp h.offset, sz.toNat⟩]) ∧
      h.offset ≤ alignUp h.offset ∧ alignUp h.offset + sz.toNat ≤ h.size := by
  obtain ⟨hoffset, hsum⟩ := hno hroom
  have hmax : (if sz.toNat > 64 then sz.toNat else 64) = max sz.toNat 64 := by
    split <;> omega
  refine ⟨?_, ?_, ?_⟩
  · simp only [allocPush, tsaMemPoolAlloc, if_neg hroom, Option.map_some, Option.toList_some, hmax,
      Nat.mod_eq_of_lt hsum]
  · rw [alignUp, Nat.mod_eq_of_lt hoffset]
    omega
  · rw [Nat.mod_eq_of_lt (by omega)] at hroom
    omega

/-- Blocks of a run that does not wrap: in the pool, aligned, and each behind those before it. -/
theorem blocks_ordered (requests : List UInt64) (h : MemPool)
    (hno : Along NoWrap (fun h sz => (allocPush h sz).1) h requests) :
    (∀ b ∈ (run allocPush h requests).2,
      h.offset ≤ b.start ∧ b.start + b.len ≤ h.size ∧ 64 ∣ b.start) ∧
    (run allocPush h requests).2.Pairwise fun a b => a.start + a.len ≤ b.start := by
  induction requests generalizing h with
  | nil => exact ⟨fun b hb => absurd hb not_mem_nil, .nil⟩
  | cons sz requests ih =>
    have htail := ih (allocPush h sz).1 hno.2
    rw [run]
    by_cases hroom : (alignUp h.offset + sz.toNat) % 2 ^ 64 > h.size
    · rw [allocPush_refused hroom] at htail ⊢
      exact htail
    · obtain ⟨heq, hbehind, hinside⟩ := allocPush_granted hroom hno.1
      rw [heq] at htail ⊢
      simp only [singleton_append, forall_mem_cons, pairwise_cons] at htail ⊢
      refine ⟨⟨⟨hbehind, hinside, ⟨_, Nat.mul_comm _ _⟩⟩, fun b hb => ?_⟩, fun b hb => ?_, htail.2⟩
      · have := htail.1 b hb
        exact ⟨by omega, this.2⟩
      · have := htail.1 b hb
        omega

/-- Where the pool ends early enough, only a block that is not inside wraps. -/
theorem along_of_inside (requests : List UInt64) (h : MemPool) (hsmall : h.size + 128 ≤ 2 ^ 64)
    (hnear : h.offset ≤ h.size + 64)
    (hinside : ∀ b ∈ (run allocPush h requests).2, b.start + b.len ≤ h.size) :
    Along NoWrap (fun h sz => (allocPush h sz).1) h requests := by
  induction requests generalizing h with
  | nil => trivial
  | cons sz requests ih =>
    rw [run] at hinside
    rw [Along]
    by_cases hroom : (alignUp h.offset + sz.toNat) % 2 ^ 64 > h.size
    · rw [allocPush_refused hroom] at hinside ⊢
      exact ⟨fun h => absurd hroom h, ih h hsmall hnear hinside⟩
    · have hblock : alignUp h.offset + sz.toNat ≤ h.size :=
        hinside ⟨alignUp h.offset, sz.toNat⟩ (by
          simp only [allocPush, tsaMemPoolAlloc, if_neg hroom]
          exact mem_cons_self)
      have hno : NoWrap h sz := fun _ => ⟨by omega, by omega⟩
      rw [(allocPush_granted hroom hno).1] at hinside ⊢
      exact ⟨hno, ih ⟨h.size, _⟩ hsmall (by simp only; omega) fun b hb =>
        hinside b (mem_cons_of_mem _ hb)⟩

/-- **Pool allocation is disjoint where no request wraps**, and only there unless the pool reaches
    the end of the address space. -/
theorem pool_sound_of_noWrap (size : UInt64) (requests : List UInt64) :
    (Along NoWrap (fun h sz => (allocPush h sz).1) ⟨size.toNat, 0⟩ requests →
      Sound size.toNat (blocksOf size requests)) ∧
    (size.toNat + 128 ≤ 2 ^ 64 → Sound size.toNat (blocksOf size requests) →
      Along NoWrap (fun h sz => (allocPush h sz).1) ⟨size.toNat, 0⟩ requests) := by
  constructor
  · intro hno
    obtain ⟨hblocks, hordered⟩ := blocks_ordered requests ⟨size.toNat, 0⟩ hno
    refine ⟨fun b hb => (hblocks b hb).2.1, fun b hb => (hblocks b hb).2.2, hordered.imp ?_⟩
    intro a b hab x ha hb
    omega
  · intro hsmall hsound
    exact along_of_inside requests ⟨size.toNat, 0⟩ hsmall (Nat.zero_le _) hsound.inside

/-- 64 bytes, and then all but 64 bytes of the address space: the second block begins in a pool of
    128 bytes and ends far behind it. -/
theorem huge_request_granted : ¬ Sound 128 (blocksOf 128 [64, 0 - 64]) := by
  intro h
  have hinside := h.inside ⟨64, 2 ^ 64 - 64⟩ (by decide)
  exact absurd hinside (by decide)

end TsAnalyzer.Util
