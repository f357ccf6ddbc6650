/-
  A window of the last samples of a stream, kept in a ring.

  The ring is written at `head`, which then moves on modulo its size; until the first lap is done
  the slots from `head` on are empty.  So slot 0 holds the OLDEST sample during the first lap and
  again whenever a lap is just done; in between the slots from `head` on are older.
-/
import Mathlib

namespace TsAnalyzer.Lib

/-- The last samples: `count` of them, the next one goes to slot `head`. -/
structure RingWindow (α : Type) where
  /-- Read at indices below `count`. -/
  samples : Nat → α
  count : Nat
  head : Nat

namespace RingWindow

variable {α : Type} {size : Nat}

/-- A sample comes in. -/
def push (size : Nat) (w : RingWindow α) (x : α) : RingWindow α where
  samples := Function.update w.samples w.head x
  count := if w.count < size then w.count + 1 else w.count
  head := (w.head + 1) % size

/-- Slot `i` was written no later than slot `j`. -/
def Before (head i j : Nat) : Prop := i ≤ j ∧ (j < head ∨ head ≤ i) ∨ head ≤ i ∧ j < head

/-- The indices are those of a ring of this size. -/
structure Shaped (size : Nat) (w : RingWindow α) : Prop where
  head_lt : w.head < size
  count_le : w.count ≤ size
  /-- The first lap. -/
  head_eq : w.count < size → w.head = w.count

/-- The slot after `head`. -/
theorem succ_mod_cases {head : Nat} (h : head < size) :
    head + 1 < size ∧ (head + 1) % size = head + 1 ∨ head + 1 = size ∧ (head + 1) % size = 0 := by
  rcases Nat.lt_or_ge (head + 1) size with hlt | hge
  · exact .inl ⟨hlt, Nat.mod_eq_of_lt hlt⟩
  · have hlast : head + 1 = size := by omega
    exact .inr ⟨hlast, by rw [hlast, Nat.mod_self]⟩

theorem push_count_cases (size : Nat) (w : RingWindow α) (x : α) :
    w.count < size ∧ (w.push size x).count = w.count + 1 ∨
      size ≤ w.count ∧ (w.push size x).count = w.count := by
  unfold push
  simp only
  split
  · rename_i hlt
    exact .inl ⟨hlt, rfl⟩
  · rename_i hfull
    exact .inr ⟨Nat.le_of_not_lt hfull, rfl⟩

theorem push_shaped {w : RingWindow α} (h : w.Shaped size) (x : α) :
    (w.push size x).Shaped size := by
  obtain ⟨hhead, hcount, hlap⟩ := h
  have hhead' : (w.push size x).head = (w.head + 1) % size := rfl
  rcases succ_mod_cases hhead with ⟨hlt, heq⟩ | ⟨hlast, heq⟩ <;>
    rcases push_count_cases size w x with ⟨hroom, hc⟩ | ⟨hfull, hc⟩ <;>
    rw [heq] at hhead' <;> constructor <;> omega

variable [PartialOrder α]

/-- The samples are in the order of their slots. -/
def Ordered (w : RingWindow α) : Prop :=
  ∀ i j, i < w.count → j < w.count → Before w.head i j → w.samples i ≤ w.samples j

theorem push_ordered {w : RingWindow α} (hshape : w.Shaped size) (h : w.Ordered) {x : α}
    (hx : ∀ i < w.count, w.samples i ≤ x) : (w.push size x).Ordered := by
  obtain ⟨hhead, hcount, hlap⟩ := hshape
  intro i j hi hj hbefore
  have hold : ∀ k, k < (w.push size x).count → k ≠ w.head → k < w.count := by
    intro k hk hne
    rcases push_count_cases size w x with ⟨hroom, hc⟩ | ⟨hfull, hc⟩
    · have := hlap hroom
      omega
    · omega
  have hhead' := succ_mod_cases hhead
  change Before ((w.head + 1) % size) i j at hbefore
  show Function.update w.samples w.head x i ≤ Function.update w.samples w.head x j
  unfold Before at hbefore
  by_cases hj' : j = w.head
  · -- nothing is above the newest sample
    subst hj'
    rw [Function.update_self]
    by_cases hi' : i = w.head
    · subst hi'
      rw [Function.update_self]
    · rw [Function.update_of_ne hi']
      exact hx i (hold i hi hi')
  · have hi' : i ≠ w.head := by
      -- and nothing else comes after it
      have hj'' := hold j hj hj'
      rcases hhead' with ⟨hlt, heq⟩ | ⟨hlast, heq⟩ <;> rw [heq] at hbefore <;> omega
    rw [Function.update_of_ne hi', Function.update_of_ne hj']
    refine h i j (hold i hi hi') (hold j hj hj') ?_
    unfold Before
    have hi'' := hold i hi hi'
    have hj'' := hold j hj hj'
    rcases hhead' with ⟨hlt, heq⟩ | ⟨hlast, heq⟩ <;> rw [heq] at hbefore <;> omega

/-- Slot 0 is below every other slot: in the first lap, when a lap is just done, and where the
    oldest sample, in slot `head`, is the same. -/
theorem push_first_le_iff {w : RingWindow α} (hshape : w.Shaped size)
    (h : w.Ordered) {x : α} (hx : ∀ i < w.count, w.samples i ≤ x) :
    (∀ k < (w.push size x).count, (w.push size x).samples 0 ≤ (w.push size x).samples k) ↔
      w.count < size ∨ w.head + 1 = size ∨
        (w.push size x).samples (w.head + 1) = (w.push size x).samples 0 := by
  have hordered := push_ordered hshape h hx
  obtain ⟨hhead, hcount, hlap⟩ := hshape
  by_cases hfirst : w.count < size ∨ w.head + 1 = size
  · refine iff_of_true (fun k hk => hordered 0 k (by omega) hk ?_) ?_
    · -- slot 0 is before every slot
      have hhead' : (w.push size x).head = (w.head + 1) % size := rfl
      unfold Before
      rcases succ_mod_cases hhead with ⟨hlt, heq⟩ | ⟨hlast, heq⟩ <;>
        rcases push_count_cases size w x with ⟨hroom, hc⟩ | ⟨hfull, hc⟩ <;>
        rw [heq] at hhead' <;> omega
    · tauto
  · obtain ⟨hfull, hlast⟩ := not_or.mp hfirst
    have hhead' : (w.push size x).head = w.head + 1 := by
      show (w.head + 1) % size = w.head + 1
      exact Nat.mod_eq_of_lt (by omega)
    have hall : (w.push size x).count = size := by
      rcases push_count_cases size w x with ⟨hroom, hc⟩ | ⟨hfull, hc⟩ <;> omega
    rw [or_iff_right hfull, or_iff_right hlast]
    constructor
    · intro hle
      refine le_antisymm (hordered (w.head + 1) 0 (by omega) (by omega) ?_) (hle _ (by omega))
      unfold Before
      omega
    · intro heq k hk
      rcases Nat.lt_or_ge k (w.head + 1) with hlt | hge
      · refine hordered 0 k (by omega) hk ?_
        unfold Before
        omega
      · rw [← heq]
        refine hordered (w.head + 1) k (by omega) hk ?_
        unfold Before
        omega

end RingWindow

end TsAnalyzer.Lib
