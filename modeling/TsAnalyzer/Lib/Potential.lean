/-
  Potentials: what a run costs and what it gains, added up step by step.
  A potential that pays for each step pays for the run (`potential_run`).
-/
import TsAnalyzer.Lib.Run

namespace TsAnalyzer.Lib

variable {σ α M N : Type}

/-- The sum of `f` over the steps of a run, each taken before the step. -/
def sumAlong [AddCommMonoid M] (f : σ → α → M) (step : σ → α → σ) : σ → List α → M
  | _, [] => 0
  | s, a :: as => f s a + sumAlong f step (step s a) as

theorem map_sumAlong [AddCommMonoid M] [AddCommMonoid N] (g : M →+ N) (f : σ → α → M)
    (step : σ → α → σ) (as : List α) (s : σ) :
    g (sumAlong f step s as) = sumAlong (fun s a => g (f s a)) step s as := by
  induction as generalizing s with
  | nil => exact map_zero g
  | cons a as ih =>
    rw [sumAlong, map_add, ih]
    rfl

/-- A constant for each input that satisfies `P`. -/
theorem sumAlong_count [AddCommMonoid M] (P : α → Prop) [DecidablePred P] (x : M)
    (step : σ → α → σ) (as : List α) (s : σ) :
    sumAlong (fun _ a => if P a then x else 0) step s as = as.countP (fun a => P a) • x := by
  induction as generalizing s with
  | nil => exact (zero_nsmul x).symm
  | cons a as ih =>
    rw [sumAlong, ih, List.countP_cons]
    by_cases h : P a
    · simp [h, add_nsmul, add_comm]
    · simp [h]

/-- **The potential method**: if each step's cost is paid by the potential it uses up and the gain
    it makes, then so is a run's. -/
theorem potential_run [AddCommGroup M] [PartialOrder M] [IsOrderedAddMonoid M] {step : σ → α → σ}
    {I : σ → Prop} {R : σ → α → Prop} {V : σ → M} {c g : σ → α → M}
    (hinv : ∀ s a, I s → R s a → I (step s a))
    (hstep : ∀ s a, I s → R s a → V (step s a) + c s a ≤ V s + g s a) (as : List α) (s : σ)
    (hs : I s) (h : Along R step s as) :
    V (as.foldl step s) + sumAlong c step s as ≤ V s + sumAlong g step s as := by
  induction as generalizing s with
  | nil => exact le_refl _
  | cons a as ih =>
    obtain ⟨hR, hrest⟩ := h
    have hnow := hstep s a hs hR
    have hlater := ih (step s a) (hinv s a hs hR) hrest
    rw [List.foldl_cons, sumAlong, sumAlong]
    calc V (as.foldl step (step s a)) + (c s a + sumAlong c step (step s a) as)
        = V (as.foldl step (step s a)) + sumAlong c step (step s a) as + c s a := by abel
      _ ≤ V (step s a) + sumAlong g step (step s a) as + c s a := by gcongr
      _ = V (step s a) + c s a + sumAlong g step (step s a) as := by abel
      _ ≤ V s + g s a + sumAlong g step (step s a) as := by gcongr
      _ = V s + (g s a + sumAlong g step (step s a) as) := by abel

end TsAnalyzer.Lib
