/-
  Blocks of bytes in a RING: a block that runs past the end goes on at the start.
  With the bytes laid out from `head` on, a write behind the last one appends, and a read at `head`
  takes the first (`Laid.writeAround`, `Laid.bytesAround`).
-/
import TsAnalyzer.Lib.Bytes
import TsAnalyzer.Lib.Fifo

namespace TsAnalyzer.Lib

open List

/-- Copy `bytes` into a ring of `size` bytes, from position `i` on. -/
def writeAround (size : Nat) (m : Nat → UInt8) (i : Nat) (bytes : List UInt8) : Nat → UInt8 :=
  let toEnd := size - i
  if bytes.length ≤ toEnd then writeAt m i bytes
  else writeAt (writeAt m i (bytes.take toEnd)) 0 (bytes.drop toEnd)

/-- Copy `n` bytes out of a ring of `size` bytes, from position `i` on. -/
def bytesAround (size : Nat) (m : Nat → UInt8) (i n : Nat) : List UInt8 :=
  let toEnd := size - i
  if n ≤ toEnd then bytesAt m i n else bytesAt m i toEnd ++ bytesAt m 0 (n - toEnd)

variable {i : Nat} {bytes : List UInt8}

theorem writeAt_inside {m : Nat → UInt8} {k : Nat} (hik : i ≤ k)
    (hk : k < i + bytes.length) : writeAt m i bytes k = bytes.getD (k - i) 0 := if_pos ⟨hik, hk⟩

theorem writeAt_outside {m : Nat → UInt8} {k : Nat}
    (h : k < i ∨ i + bytes.length ≤ k) : writeAt m i bytes k = m k := by
  refine if_neg fun hin => ?_
  omega

@[simp] theorem length_bytesAt (m : Nat → UInt8) (i n : Nat) : (bytesAt m i n).length = n := by
  unfold bytesAt
  rw [length_map, length_range]

theorem length_bytesAround (size : Nat) (m : Nat → UInt8) (i n : Nat) :
    (bytesAround size m i n).length = n := by
  unfold bytesAround
  dsimp only
  split
  · exact length_bytesAt m i n
  · rw [length_append, length_bytesAt, length_bytesAt]
    omega

/-- The slot `k` steps behind `i`, with at most one turn around the end. -/
theorem slot_wraps {size k : Nat} (hi : i < size) (hk : k < size) :
    (i + k) % size = if k < size - i then i + k else k - (size - i) := by
  split
  · exact Nat.mod_eq_of_lt (by omega)
  · rw [Nat.mod_eq_sub_mod (by omega), Nat.mod_eq_of_lt (by omega)]
    omega

/-- **A block write, slot by slot.** -/
theorem writeAround_at {size k : Nat} (m : Nat → UInt8) (hi : i < size)
    (hk : k < size) (hlen : bytes.length ≤ size) :
    writeAround size m i bytes ((i + k) % size) =
      if k < bytes.length then bytes.getD k 0 else m ((i + k) % size) := by
  unfold writeAround
  rw [slot_wraps hi hk]
  split
  · -- the block ends before the ring does
    rename_i hfits
    split
    · split
      · rw [writeAt_inside (by omega) (by omega), Nat.add_sub_cancel_left]
      · exact writeAt_outside (by omega)
    · rw [if_neg (by omega)]
      exact writeAt_outside (by omega)
  · rename_i hwraps
    have htake : (bytes.take (size - i)).length = size - i := by
      rw [length_take]
      omega
    have hdrop : (bytes.drop (size - i)).length = bytes.length - (size - i) := length_drop
    split
    · -- a slot before the end: in the first copy
      rename_i hbefore
      rw [if_pos (by omega), writeAt_outside (by omega), writeAt_inside (by omega) (by omega),
        Nat.add_sub_cancel_left, getD_eq_getElem?_getD, getD_eq_getElem?_getD,
        getElem?_take_of_lt hbefore]
    · -- a slot after it: in the second copy, or untouched by both
      rename_i hafter
      split
      · rw [writeAt_inside (by omega) (by omega), Nat.sub_zero, getD_eq_getElem?_getD,
          getD_eq_getElem?_getD, getElem?_drop]
        congr 2
        omega
      · rw [writeAt_outside (by omega), writeAt_outside (by omega)]

/-- **A block read, slot by slot.** -/
theorem bytesAround_eq_map {size n : Nat} (m : Nat → UInt8) (hi : i < size) (hn : n ≤ size) :
    bytesAround size m i n = (range n).map fun k => m ((i + k) % size) := by
  unfold bytesAround bytesAt
  dsimp only
  split
  · refine map_congr_left fun k hk => ?_
    have hk := mem_range.mp hk
    rw [slot_wraps hi (by omega), if_pos (by omega)]
  · rename_i hwraps
    rw [show n = size - i + (n - (size - i)) by omega, range_add, map_append,
      map_map, Nat.add_sub_cancel_left]
    congr 1
    · refine map_congr_left fun k hk => ?_
      have hk := mem_range.mp hk
      rw [slot_wraps hi (by omega), if_pos hk]
    · refine map_congr_left fun k hk => ?_
      have hk := mem_range.mp hk
      rw [Function.comp_apply, slot_wraps hi (by omega), if_neg (by omega)]
      congr 1
      omega

namespace Fifo

variable {size head : Nat} {m : Nat → UInt8} {items : List UInt8}

/-- **A block written behind the last byte is appended.** -/
theorem Laid.writeAround (h : Laid size m head items) (hpos : 0 < size)
    (hroom : items.length + bytes.length ≤ size) :
    Laid size (writeAround size m ((head + items.length) % size) bytes) head (items ++ bytes) := by
  have htail : (head + items.length) % size < size := Nat.mod_lt _ hpos
  intro k hk
  rw [length_append] at hk
  rcases Nat.lt_or_ge k items.length with hold | hnew
  · -- an old byte lies `size - items.length + k` slots behind the place of the write
    have hslot : (head + k) % size =
        ((head + items.length) % size + (size - items.length + k)) % size := by
      rw [Nat.mod_add_mod, show head + items.length + (size - items.length + k) =
        head + k + size by omega, Nat.add_mod_right]
    rw [hslot, writeAround_at m htail (by omega) (by omega), if_neg (by omega), ← hslot,
      getElem_append_left hold]
    exact h k hold
  · have hslot : (head + k) % size =
        ((head + items.length) % size + (k - items.length)) % size := by
      rw [Nat.mod_add_mod]
      congr 1
      omega
    rw [hslot, writeAround_at m htail (by omega) (by omega), if_pos (by omega),
      getElem_append_right hnew, getD_eq_getElem?_getD,
      getElem?_eq_getElem (by omega), Option.getD_some]

/-- **The block at `head` is the first bytes.** -/
theorem Laid.bytesAround (h : Laid size m head items) (hhead : head < size)
    (hsize : items.length ≤ size) {n : Nat} (hn : n ≤ items.length) :
    bytesAround size m head n = items.take n := by
  rw [bytesAround_eq_map m hhead (by omega)]
  apply ext_getElem
  · rw [length_map, length_range, length_take]
    omega
  · intro k hk _
    rw [length_map, length_range] at hk
    rw [getElem_map, getElem_range, getElem_take]
    exact h k (by omega)

/-- Without its first `n` items the layout starts `n` slots later. -/
theorem Laid.drop (h : Laid size m head items) {n : Nat} (hn : n ≤ items.length) :
    Laid size m ((head + n) % size) (items.drop n) := by
  intro k hk
  rw [length_drop] at hk
  rw [Nat.mod_add_mod, Nat.add_assoc, getElem_drop]
  exact h (n + k) (by omega)

end Fifo

end TsAnalyzer.Lib
