/-
  Programs that read memory, with the POSITIONS they read.

  A byte is had only through `load`, which notes its position, so no program can read in secret:
  its positions are part of its meaning, and its value is what the plain program computes.
-/
import Mathlib

namespace TsAnalyzer.Lib

/-- A value, and the positions read on the way to it. -/
structure Traced (α : Type) where
  value : α
  reads : List Nat

namespace Traced

variable {α β γ : Type}

instance : Monad Traced where
  pure a := ⟨a, []⟩
  bind m f := ⟨(f m.value).value, m.reads ++ (f m.value).reads⟩

/-- The byte at position `i`. -/
def load (mem : Nat → UInt8) (i : Nat) : Traced UInt8 := ⟨mem i, [i]⟩

/-- A loop that collects. -/
def each (f : α → Traced β) : List α → Traced (List β)
  | [] => pure []
  | a :: as => do
    let b ← f a
    let bs ← each f as
    return b :: bs

/-- A loop that accumulates. -/
def foldM (f : γ → α → Traced γ) : List α → γ → Traced γ
  | [], c => pure c
  | a :: as, c => do
    let c ← f c a
    foldM f as c

/-! ## Values -/

@[simp] theorem pure_value (a : α) : (pure a : Traced α).value = a := rfl

@[simp] theorem bind_value (m : Traced α) (f : α → Traced β) :
    (m >>= f).value = (f m.value).value := rfl

@[simp] theorem load_value (mem : Nat → UInt8) (i : Nat) : (load mem i).value = mem i := rfl

theorem ite_value {c : Prop} [Decidable c] (m m' : Traced α) :
    (if c then m else m').value = if c then m.value else m'.value := by
  split <;> rfl

theorem each_value (f : α → Traced β) (as : List α) :
    (each f as).value = as.map fun a => (f a).value := by
  induction as with
  | nil => rfl
  | cons a as ih =>
    rw [each, bind_value, bind_value, pure_value, ih, List.map_cons]

theorem foldM_value (f : γ → α → Traced γ) (as : List α) (c : γ) :
    (foldM f as c).value = as.foldl (fun c a => (f c a).value) c := by
  induction as generalizing c with
  | nil => rfl
  | cons a as ih => rw [foldM, bind_value, ih, List.foldl_cons]

/-! ## Positions -/

/-- All reads are below `n`. -/
def Within (n : Nat) (m : Traced α) : Prop := ∀ i ∈ m.reads, i < n

theorem within_pure (n : Nat) (a : α) : Within n (pure a : Traced α) := fun _ hi => by cases hi

theorem within_load {n : Nat} {mem : Nat → UInt8} {i : Nat} : Within n (load mem i) ↔ i < n := by
  constructor
  · intro h
    exact h i List.mem_cons_self
  · intro h j hj
    rw [List.eq_of_mem_singleton hj]
    exact h

theorem within_bind {n : Nat} {m : Traced α} {f : α → Traced β} :
    Within n (m >>= f) ↔ Within n m ∧ Within n (f m.value) := List.forall_mem_append

theorem within_map {n : Nat} {m : Traced α} {f : α → β} :
    Within n (m >>= fun a => pure (f a)) ↔ Within n m :=
  within_bind.trans (and_iff_left (within_pure n _))

theorem within_each {n : Nat} {f : α → Traced β} {as : List α} (h : ∀ a ∈ as, Within n (f a)) :
    Within n (each f as) := by
  induction as with
  | nil => exact within_pure n _
  | cons a as ih =>
    have hrest := ih fun b hb => h b (List.mem_cons_of_mem a hb)
    exact within_bind.mpr ⟨h a List.mem_cons_self, within_map.mpr hrest⟩

theorem within_foldM {n : Nat} {f : γ → α → Traced γ} {as : List α} {c : γ}
    (h : ∀ a ∈ as, ∀ c, Within n (f c a)) : Within n (foldM f as c) := by
  induction as generalizing c with
  | nil => exact within_pure n _
  | cons a as ih =>
    refine within_bind.mpr ⟨h a List.mem_cons_self c, ih ?_⟩
    intro b hb
    exact h b (List.mem_cons_of_mem a hb)

end Traced

end TsAnalyzer.Lib
