/-
  The bounded FIFO, as a specification and as a layout in a RING.

  What a FIFO may report is a `History`; in a ring the items are `Laid` from `tail` on, and a write
  behind the last disturbs none.
-/
import Mathlib

namespace TsAnalyzer.Lib.Fifo

open List Function

variable {α : Type} {n : Nat}

/-! ## Histories -/

/-- What an operation reports. -/
inductive Event (α : Type) where
  | pushed (a : α)
  | pushFailed (a : α)
  | popped (a : α)
  | popFailed

/-- One event at a FIFO of capacity `n`: the items before it, and the items after it. -/
inductive Allowed (n : Nat) : List α → Event α → List α → Prop
  | pushed {items : List α} {a : α} : items.length < n → Allowed n items (.pushed a) (items ++ [a])
  | pushFailed {items : List α} {a : α} : items.length = n → Allowed n items (.pushFailed a) items
  | popped {items : List α} {a : α} : Allowed n (a :: items) (.popped a) items
  | popFailed : Allowed n [] .popFailed []

/-- Events at a FIFO of capacity `n`, oldest first. -/
inductive History (n : Nat) : List α → List (Event α) → List α → Prop
  | nil {items : List α} : History n items [] items
  | cons {xs ys zs : List α} {e : Event α} {es : List (Event α)} :
    Allowed n xs e ys → History n ys es zs → History n xs (e :: es) zs

theorem History.single {xs ys : List α} {e : Event α} (h : Allowed n xs e ys) :
    History n xs [e] ys :=
  .cons h .nil

theorem History.trans {xs ys zs : List α} {es fs : List (Event α)} (h : History n xs es ys)
    (h' : History n ys fs zs) : History n xs (es ++ fs) zs := by
  induction h with
  | nil => exact h'
  | cons he _ ih => exact .cons he (ih h')

/-- The items pushed, oldest first. -/
def pushedOf (es : List (Event α)) : List α :=
  es.filterMap fun
    | .pushed a => some a
    | _ => none

/-- The items popped, oldest first. -/
def poppedOf (es : List (Event α)) : List α :=
  es.filterMap fun
    | .popped a => some a
    | _ => none

theorem pushedOf_append (es fs : List (Event α)) :
    pushedOf (es ++ fs) = pushedOf es ++ pushedOf fs :=
  filterMap_append

theorem poppedOf_append (es fs : List (Event α)) :
    poppedOf (es ++ fs) = poppedOf es ++ poppedOf fs :=
  filterMap_append

/-- **Nothing is lost, changed or overtaken**: what was there and what was pushed is what was
    popped, followed by what is left. -/
theorem History.conserves {xs zs : List α} {es : List (Event α)} (h : History n xs es zs) :
    xs ++ pushedOf es = poppedOf es ++ zs := by
  induction h with
  | nil => exact append_nil _
  | cons he _ ih =>
    cases he with
    | pushed _ => rw [append_assoc] at ih; exact ih
    | pushFailed | popFailed => exact ih
    | popped => exact congrArg (List.cons _) ih

theorem History.length_le {xs zs : List α} {es : List (Event α)} (h : History n xs es zs)
    (hxs : xs.length ≤ n) : zs.length ≤ n := by
  induction h with
  | nil => exact hxs
  | cons he _ ih =>
    apply ih
    cases he with
    | pushed hlt => rw [length_append, length_singleton]; exact hlt
    | pushFailed heq => exact Nat.le_of_eq heq
    | popped => rw [length_cons] at hxs; exact Nat.le_of_succ_le hxs
    | popFailed => exact hxs

/-! ## Slots of a ring -/

theorem slot_ne {size t i j : Nat} (hij : i < j) (hj : j < i + size) :
    (t + i) % size ≠ (t + j) % size := by
  intro heq
  have hdvd : size ∣ (t + j) - (t + i) := (Nat.modEq_iff_dvd' (by omega)).mp heq
  have hle := Nat.le_of_dvd (by omega) hdvd
  omega

theorem succ_slot_eq_iff {t len : Nat} (ht : t < n + 1) (hlen : len ≤ n) :
    ((t + len) % (n + 1) + 1) % (n + 1) = t ↔ len = n := by
  rw [Nat.mod_add_mod, Nat.add_assoc]
  constructor
  · intro heq
    by_contra hne
    have hdiff := @slot_ne (n + 1) t 0 (len + 1) (Nat.succ_pos len) (by omega)
    rw [Nat.add_zero, Nat.mod_eq_of_lt ht] at hdiff
    exact hdiff heq.symm
  · rintro rfl
    rw [Nat.add_mod_right, Nat.mod_eq_of_lt ht]

theorem slot_eq_iff {t len : Nat} (ht : t < n + 1) (hlen : len ≤ n) :
    t = (t + len) % (n + 1) ↔ len = 0 := by
  constructor
  · intro heq
    by_contra hne
    have hdiff := @slot_ne (n + 1) t 0 len (Nat.pos_of_ne_zero hne) (by omega)
    rw [Nat.add_zero, Nat.mod_eq_of_lt ht] at hdiff
    exact hdiff heq
  · rintro rfl
    rw [Nat.add_zero, Nat.mod_eq_of_lt ht]

/-! ## Items laid out in a ring -/

def Laid (size : Nat) (buffer : Nat → α) (tail : Nat) (items : List α) : Prop :=
  ∀ k (h : k < items.length), buffer ((tail + k) % size) = items[k]

variable {size tail : Nat} {buffer : Nat → α} {items : List α}

theorem Laid.write (h : Laid size buffer tail items) (hlt : items.length < size) (a : α) :
    Laid size (update buffer ((tail + items.length) % size) a) tail items := by
  intro k hk
  rw [update_of_ne (slot_ne hk (by omega))]
  exact h k hk

theorem Laid.snoc (h : Laid size buffer tail items) {a : α}
    (ha : buffer ((tail + items.length) % size) = a) : Laid size buffer tail (items ++ [a]) := by
  intro k hk
  rcases Nat.lt_or_ge k items.length with hlt | hge
  · rw [getElem_append_left hlt]
    exact h k hlt
  · rw [length_append, length_singleton] at hk
    obtain rfl : k = items.length := by omega
    rw [getElem_append_right (Nat.le_refl _)]
    simpa using ha

theorem Laid.first {a : α} (h : Laid size buffer tail (a :: items)) (ht : tail < size) :
    buffer tail = a := by
  have h0 := h 0 (Nat.succ_pos _)
  rwa [Nat.add_zero, Nat.mod_eq_of_lt ht] at h0

theorem Laid.rest {a : α} (h : Laid size buffer tail (a :: items)) :
    Laid size buffer ((tail + 1) % size) items := by
  intro k hk
  rw [Nat.mod_add_mod, Nat.add_assoc, Nat.add_comm 1 k]
  exact h (k + 1) (Nat.succ_lt_succ hk)

theorem Laid.advance (h : Laid size buffer tail items) (n : Nat) :
    Laid size buffer (tail + n) (items.drop n) := by
  intro k hk
  rw [Nat.add_assoc, getElem_drop]
  exact h (n + k) _

/-! ## The items between two indices -/

/-- `count` items from slot `i` on. -/
def itemsFrom (buffer : Fin (n + 1) → α) : Nat → Fin (n + 1) → List α
  | 0, _ => []
  | count + 1, i => buffer i :: itemsFrom buffer count (i + 1)

/-- The items of a ring with these ends, oldest first. -/
def itemsBetween (buffer : Fin (n + 1) → α) (head tail : Fin (n + 1)) : List α :=
  itemsFrom buffer (tail - head).val head

theorem itemsBetween_self (buffer : Fin (n + 1) → α) (i : Fin (n + 1)) :
    itemsBetween buffer i i = [] := by
  rw [itemsBetween, sub_self]
  rfl

theorem itemsBetween_length (buffer : Fin (n + 1) → α) (i j : Fin (n + 1)) :
    (itemsBetween buffer i j).length = (j - i).val := by
  have hfrom : ∀ (count : Nat) (i : Fin (n + 1)), (itemsFrom buffer count i).length = count := by
    intro count
    induction count with
    | zero => intro i; rfl
    | succ count ih => intro i; rw [itemsFrom, length_cons, ih]
  exact hfrom _ _

theorem ahead_succ {i j : Fin (n + 1)} (h : i ≠ j) : (j - i).val = (j - (i + 1)).val + 1 := by
  have hpos : (j - i) ≠ 0 := sub_ne_zero.mpr h.symm
  have hval : (j - i).val ≠ 0 := fun h0 => hpos (Fin.ext h0)
  rw [← sub_sub, Fin.val_sub_one_of_ne_zero hpos]
  omega

theorem itemsBetween_cons {i j : Fin (n + 1)} (h : i ≠ j) (buffer : Fin (n + 1) → α) :
    itemsBetween buffer i j = buffer i :: itemsBetween buffer (i + 1) j := by
  rw [itemsBetween, ahead_succ h, itemsFrom]
  rfl

theorem itemsBetween_snoc (buffer : Fin (n + 1) → α) (j : Fin (n + 1)) (a : α) :
    ∀ i, j + 1 ≠ i →
      itemsBetween (update buffer j a) i (j + 1) = itemsBetween buffer i j ++ [a] := by
  -- by induction on the number of items
  suffices hcount : ∀ (count : Nat) (i : Fin (n + 1)), (j - i).val = count → j + 1 ≠ i →
      itemsBetween (update buffer j a) i (j + 1) = itemsBetween buffer i j ++ [a] from
    fun i => hcount _ i rfl
  intro count
  induction count with
  | zero =>
    intro i hcount hfree
    have hij : i = j := (sub_eq_zero.mp (Fin.ext hcount)).symm
    subst hij
    rw [itemsBetween_cons hfree.symm, itemsBetween_self, itemsBetween_self,
      update_self]
    rfl
  | succ count ih =>
    intro i hcount hfree
    have hij : i ≠ j := by
      rintro rfl
      rw [sub_self] at hcount
      cases hcount
    have hnext : (j - (i + 1)).val = count := by
      have := ahead_succ hij
      omega
    have hfree1 : j + 1 ≠ i + 1 := fun h => hij (add_right_cancel h).symm
    rw [itemsBetween_cons hfree.symm, itemsBetween_cons hij, ih (i + 1) hnext hfree1,
      update_of_ne hij]
    rfl

/-- A ring is full, one slot being kept free, exactly when it holds `n` items. -/
theorem full_iff (buffer : Fin (n + 1) → α) (i j : Fin (n + 1)) :
    j + 1 = i ↔ (itemsBetween buffer i j).length = n := by
  rw [itemsBetween_length]
  constructor
  · rintro rfl
    rw [sub_add_cancel_left, Fin.coe_neg_one]
  · intro h
    have hlast : j - i = -1 := Fin.ext (by rw [h, Fin.coe_neg_one])
    rw [sub_eq_iff_eq_add.mp hlast, neg_add_cancel_comm]

/-! ## Tickets dealt out to slots -/

/-- How many of the first `count` tickets fall on the slot. -/
def dealt (size slot count : Nat) : Nat := Nat.count (fun ticket => ticket % size = slot) count

theorem dealt_succ (size slot count : Nat) :
    dealt size slot (count + 1) = dealt size slot count + if count % size = slot then 1 else 0 :=
  Nat.count_succ ..

theorem dealt_mono (size slot : Nat) {a b : Nat} (h : a ≤ b) :
    dealt size slot a ≤ dealt size slot b :=
  Nat.count_monotone _ h

theorem dealt_lap {head : Nat} (hpos : 0 < size) (h : tail + size < head) :
    dealt size (tail % size) tail + 2 ≤ dealt size (tail % size) head := by
  have hfirst := dealt_succ size (tail % size) tail
  have hsecond := dealt_succ size (tail % size) (tail + size)
  rw [if_pos rfl] at hfirst
  rw [if_pos (Nat.add_mod_right ..)] at hsecond
  have hbetween := dealt_mono size (tail % size) (show tail + 1 ≤ tail + size by omega)
  have hlater := dealt_mono size (tail % size) (show tail + size + 1 ≤ head by omega)
  omega

/-- **The slots taken are those of the tickets out.** -/
theorem slots_of_tickets {head : Nat} {taken : Nat → Prop} [DecidablePred taken]
    (hpos : 0 < size) (hle : tail ≤ head)
    (hbalance : ∀ i < size, dealt size i head = dealt size i tail + if taken i then 1 else 0) :
    head ≤ tail + size ∧ ∀ i < size, taken i ↔ ∃ t, tail ≤ t ∧ t < head ∧ t % size = i := by
  constructor
  · by_contra hlap
    have htwice := dealt_lap hpos (Nat.lt_of_not_le hlap)
    have hbal := hbalance (tail % size) (Nat.mod_lt _ hpos)
    split at hbal <;> omega
  · intro i hi
    obtain ⟨d, rfl⟩ := Nat.exists_eq_add_of_le hle
    have hbal := hbalance i hi
    rw [dealt, Nat.count_add, dealt, Nat.add_left_cancel_iff] at hbal
    have htaken : taken i ↔ Nat.count (fun k => (tail + k) % size = i) d ≠ 0 := by
      rw [hbal]
      by_cases h : taken i <;> simp [h]
    rw [htaken, Nat.count_ne_iff_exists]
    constructor
    · rintro ⟨k, hk, heq⟩
      exact ⟨tail + k, Nat.le_add_right _ _, by omega, heq⟩
    · rintro ⟨t, htail, hhead, heq⟩
      exact ⟨t - tail, by omega, by rwa [Nat.add_sub_cancel' htail]⟩

end TsAnalyzer.Lib.Fifo
