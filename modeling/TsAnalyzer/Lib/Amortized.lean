/-
  What a stateful program costs, with a measure of the state that counts what was spent and what can
  still be spent: `Amortized V m k` says that `m` adds at most `k` to `V`, from any state.  A step
  that uses up as much of the state as it costs adds nothing.

  The rules follow the program: `pure`, `bind`, `ite`, and a loop.
-/
import Mathlib

namespace TsAnalyzer.Lib

variable {σ α β : Type}

/-- `m` adds at most `k` to the measure `V`. -/
def Amortized (V : σ → Nat) (m : StateM σ α) (k : Nat) : Prop := ∀ s, V (m s).2 ≤ V s + k

/-- `m`, if `c`. -/
def onlyIf (c : Prop) [Decidable c] (m : StateM σ Unit) : StateM σ Unit := if c then m else pure ()

theorem bind_run (m : StateM σ α) (f : α → StateM σ β) (s : σ) :
    (m >>= f) s = f (m s).1 (m s).2 := rfl

theorem get_run (s : σ) : (get : StateM σ σ) s = (s, s) := rfl

theorem pure_run (a : α) (s : σ) : (pure a : StateM σ α) s = (a, s) := rfl

namespace Amortized

variable {V : σ → Nat}

theorem mono {m : StateM σ α} {k l : Nat} (h : Amortized V m k) (hkl : k ≤ l) : Amortized V m l :=
  fun s => Nat.le_trans (h s) (Nat.add_le_add_left hkl _)

theorem pure (a : α) : Amortized V (pure a) 0 := fun _ => Nat.le_refl _

theorem get : Amortized V MonadState.get 0 := fun _ => Nat.le_refl _

/-- A continuation that is cheap on the values `m` can have. -/
theorem bind_of {m : StateM σ α} {f : α → StateM σ β} {k l : Nat} {P : α → Prop}
    (hm : Amortized V m k) (hP : ∀ s, P (m s).1) (hf : ∀ a, P a → Amortized V (f a) l) :
    Amortized V (m >>= f) (k + l) := by
  intro s
  have h1 := hm s
  have h2 := hf (m s).1 (hP s) (m s).2
  rw [bind_run]
  omega

theorem bind {m : StateM σ α} {f : α → StateM σ β} {k l : Nat} (hm : Amortized V m k)
    (hf : ∀ a, Amortized V (f a) l) : Amortized V (m >>= f) (k + l) :=
  bind_of (P := fun _ => True) hm (fun _ => trivial) fun a _ => hf a

theorem ite {c : Prop} [Decidable c] {m m' : StateM σ α} {k l : Nat} (hm : Amortized V m k)
    (hm' : Amortized V m' l) : Amortized V (if c then m else m') (max k l) := by
  split
  · exact hm.mono (Nat.le_max_left k l)
  · exact hm'.mono (Nat.le_max_right k l)

theorem onlyIf {c : Prop} [Decidable c] {m : StateM σ Unit} {k : Nat} (hm : Amortized V m k) :
    Amortized V (onlyIf c m) k :=
  (ite hm (pure ())).mono (Nat.le_of_eq (Nat.max_zero k))

theorem loop {f : α → StateM σ Unit} {g : List α → StateM σ Unit} {k : Nat}
    (hnil : g [] = Pure.pure ()) (hcons : ∀ a as, g (a :: as) = f a >>= fun _ => g as)
    (hf : ∀ a, Amortized V (f a) k) : ∀ as, Amortized V (g as) (as.length * k) := by
  intro as
  induction as with
  | nil =>
    rw [hnil]
    exact (pure ()).mono (Nat.zero_le _)
  | cons a as ih =>
    rw [hcons]
    refine (bind (hf a) fun _ => ih).mono ?_
    rw [List.length_cons, Nat.add_mul, Nat.one_mul, Nat.add_comm]

end Amortized

end TsAnalyzer.Lib
