/-
  Byte-addressed memory: block copies, and 32-bit little-endian words in it.  Blocks put together
  can be told apart by their lengths (`flatMap_eq_flatMap_iff`).

  Memory is a total function from addresses to bytes.  A word that gets another value CHANGES
  MEMORY: this is what lets a statement about bytes be settled by counting word operations.
-/
import Mathlib

namespace TsAnalyzer.Lib

open List

/-- `memcpy(m + i, bytes, length)`. -/
def writeAt (m : Nat → UInt8) (i : Nat) (bytes : List UInt8) : Nat → UInt8 := fun k =>
  if i ≤ k ∧ k < i + bytes.length then bytes.getD (k - i) 0 else m k

/-- The `n` bytes from address `i` on. -/
def bytesAt (m : Nat → UInt8) (i n : Nat) : List UInt8 :=
  (range n).map fun k => m (i + k)

/-- The 32-bit word at address `a`. -/
def load32 (m : Nat → UInt8) (a : Nat) : Nat :=
  (m a).toNat + 256 * (m (a + 1)).toNat + 65536 * (m (a + 2)).toNat + 16777216 * (m (a + 3)).toNat

/-- Store the low 32 bits of `v` at address `a`. -/
def store32 (m : Nat → UInt8) (a v : Nat) : Nat → UInt8 := fun i =>
  if i = a then UInt8.ofNat v
  else if i = a + 1 then UInt8.ofNat (v / 256)
  else if i = a + 2 then UInt8.ofNat (v / 65536)
  else if i = a + 3 then UInt8.ofNat (v / 16777216)
  else m i

theorem load32_store32 (m : Nat → UInt8) (a v : Nat) : load32 (store32 m a v) a = v % 2 ^ 32 := by
  have h0 : store32 m a v a = UInt8.ofNat v := if_pos rfl
  have h1 : store32 m a v (a + 1) = UInt8.ofNat (v / 256) := by
    unfold store32; rw [if_neg (by omega), if_pos rfl]
  have h2 : store32 m a v (a + 2) = UInt8.ofNat (v / 65536) := by
    unfold store32; rw [if_neg (by omega), if_neg (by omega), if_pos rfl]
  have h3 : store32 m a v (a + 3) = UInt8.ofNat (v / 16777216) := by
    unfold store32; rw [if_neg (by omega), if_neg (by omega), if_neg (by omega), if_pos rfl]
  unfold load32
  rw [h0, h1, h2, h3]
  simp only [UInt8.toNat_ofNat']
  omega

/-- A word that gets another value (modulo `2^32`) changes memory. -/
theorem store32_ne {m : Nat → UInt8} {a v : Nat} (h : v % 2 ^ 32 ≠ load32 m a) :
    store32 m a v ≠ m := by
  intro heq
  apply h
  rw [← load32_store32 m a v, heq]

theorem load32_lt (m : Nat → UInt8) (a : Nat) : load32 m a < 2 ^ 32 := by
  have h0 := (m a).toNat_lt
  have h1 := (m (a + 1)).toNat_lt
  have h2 := (m (a + 2)).toNat_lt
  have h3 := (m (a + 3)).toNat_lt
  unfold load32
  omega

theorem flatMap_eq_flatMap_iff {α β : Type} {f g : α → List β} {l : List α}
    (hle : ∀ a ∈ l, (f a).length ≤ (g a).length) :
    l.flatMap f = l.flatMap g ↔ ∀ a ∈ l, f a = g a := by
  constructor
  · induction l with
    | nil => exact fun _ a ha => absurd ha not_mem_nil
    | cons a l ih =>
      intro h
      have hrest : ∀ b ∈ l, (f b).length ≤ (g b).length :=
        fun b hb => hle b (mem_cons_of_mem a hb)
      have hsum : (l.flatMap f).length ≤ (l.flatMap g).length := by
        rw [length_flatMap, length_flatMap]
        exact sum_le_sum hrest
      have hlen := congrArg List.length h
      rw [flatMap_cons, flatMap_cons, length_append, length_append] at hlen
      have hfirst := hle a mem_cons_self
      rw [flatMap_cons, flatMap_cons] at h
      obtain ⟨hhead, htail⟩ := append_inj h (by omega)
      intro b hb
      rcases mem_cons.mp hb with rfl | hb
      · exact hhead
      · exact ih hrest htail b hb
  · intro h
    exact flatMap_congr h

end TsAnalyzer.Lib
