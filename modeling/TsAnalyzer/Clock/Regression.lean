/-
  The differences of the regression.

  `pcr_track_regress` takes every sample relative to slot 0 of the window, in unsigned arithmetic.
  Once the ring is full, the next sample goes to slot 0, and until the lap is done the slots behind
  the newest sample are OLDER than slot 0: their differences wrap, to almost `2^64` ns.
-/
import TsAnalyzer.Clock.PcrTrack

namespace TsAnalyzer.Clock

open Lib

variable {δ : Type} [Double δ]

/-- No difference against slot 0 wraps around, on either axis. -/
def NoWrap (w : RingWindow PcrSample) : Prop := ∀ k < w.count, w.samples 0 ≤ w.samples k

instance (w : RingWindow PcrSample) : Decidable (NoWrap w) :=
  inferInstanceAs (Decidable (∀ k < w.count, _))

/-- The regression of an update finds slot 0 oldest: the window was not yet full, or a lap is just
    done, or the oldest sample has the times of slot 0. -/
def PcrTrack.FirstIsOldest (t : PcrTrack δ) (u : PcrInput) : Prop :=
  t.window.count < pcrTrackWindowSize ∨ t.window.head + 1 = pcrTrackWindowSize ∨
    (t.sampled u).samples (t.window.head + 1) = (t.sampled u).samples 0

instance (t : PcrTrack δ) (u : PcrInput) : Decidable (t.FirstIsOldest u) :=
  inferInstanceAs (Decidable (_ ∨ _))

/-! ## Time order -/

/-- The update does not go back in time, and the PCR time axis stays within 64 bits (584 years). -/
def PcrTrack.Forward (t : PcrTrack δ) (u : PcrInput) : Prop :=
  t.initialized = true → t.lastArrivalNs ≤ u.arrivalNs ∧
    (¬ t.Jumps u → t.lastUnwrappedPcrNs + tsaPcrToNs (t.deltaTicks u) < 2 ^ 64)

/-- The samples are in order, none of them after the last observation. -/
structure Timed (t : PcrTrack δ) : Prop where
  shaped : t.window.Shaped pcrTrackWindowSize
  ordered : t.window.Ordered
  last : ∀ i < t.window.count, t.window.samples i ≤ ⟨t.lastArrivalNs, t.lastUnwrappedPcrNs⟩
  empty : t.initialized = false → t.window.count = 0

variable {t : PcrTrack δ}

omit [Double δ] in
theorem Timed.of_empty (hcount : t.window.count = 0) (hhead : t.window.head = 0) : Timed t where
  shaped := by
    refine ⟨?_, ?_, fun _ => ?_⟩
    · rw [hhead]
      decide
    · rw [hcount]
      exact Nat.zero_le _
    · rw [hhead, hcount]
  ordered i j hi := by omega
  last i hi := by omega
  empty _ := hcount

variable {u : PcrInput}

omit [Double δ] in
theorem Timed.before_sample (h : Timed t)
    (hinit : t.initialized = true) (hforward : t.Forward u) (hjump : ¬ t.Jumps u) :
    ∀ i < t.window.count, t.window.samples i ≤ ⟨u.arrivalNs, t.unwrappedNs u⟩ := by
  obtain ⟨harrival, hrange⟩ := hforward hinit
  have haxis : t.unwrappedNs u = t.lastUnwrappedPcrNs + tsaPcrToNs (t.deltaTicks u) :=
    Nat.mod_eq_of_lt (hrange hjump)
  intro i hi
  refine le_trans (h.last i hi) ?_
  rw [haxis]
  exact ⟨harrival, Nat.le_add_right _ _⟩

omit [Double δ] in
theorem Timed.sampled {t' : PcrTrack δ} (h : Timed t)
    (hinit : t.initialized = true) (hforward : t.Forward u) (hjump : ¬ t.Jumps u)
    (hwindow : t'.window = t.sampled u) (harrival : t'.lastArrivalNs = u.arrivalNs)
    (hunwrapped : t'.lastUnwrappedPcrNs = t.unwrappedNs u) (hinit' : t'.initialized = true) :
    Timed t' := by
  have hbefore := h.before_sample hinit hforward hjump
  refine ⟨?_, ?_, ?_, fun hnone => ?_⟩
  · rw [hwindow]
    exact RingWindow.push_shaped h.shaped _
  · rw [hwindow]
    exact RingWindow.push_ordered h.shaped h.ordered hbefore
  · rw [hwindow, harrival, hunwrapped]
    intro i hi
    by_cases hnew : i = t.window.head
    · subst hnew
      exact le_of_eq (Function.update_self ..)
    · refine le_of_eq_of_le (Function.update_of_ne hnew ..) (hbefore i ?_)
      rcases RingWindow.push_count_cases pcrTrackWindowSize t.window
        ⟨u.arrivalNs, t.unwrappedNs u⟩ with ⟨hroom, hcount⟩ | ⟨hfull, hcount⟩
      · have hhead := h.shaped.head_eq hroom
        unfold PcrTrack.sampled at hi
        omega
      · unfold PcrTrack.sampled at hi
        omega
  · rw [hinit'] at hnone
    cases hnone

theorem Timed.update (h : Timed t) (s : PcrStats δ)
    (hforward : t.Forward u) : Timed (tsaPcrTrackUpdate t s u).1 := by
  have heffect := update_effect t s u
  generalize (tsaPcrTrackUpdate t s u).1 = t' at heffect ⊢
  generalize (tsaPcrTrackUpdate t s u).2.1 = s' at heffect
  cases heffect with
  | ignored hinit hvalid => exact h
  | started hinit hvalid =>
    have hcount := h.empty hinit
    have hnone : ∀ i, ¬ i < t.window.count := fun i hi => by omega
    exact ⟨h.shaped, h.ordered, fun i hi => absurd hi (hnone i), fun _ => hcount⟩
  | reset _ hinit hjump hlive hinit' hwindow hhead herrors => exact .of_empty hwindow hhead
  | arrived _ hinit hvalid hlive hinit' hwindow herrors hpcr hunwrapped harrival =>
    refine ⟨hwindow ▸ h.shaped, hwindow ▸ h.ordered, ?_, fun hnone => ?_⟩
    · rw [hwindow, harrival, hunwrapped]
      exact fun i hi => le_trans (h.last i hi) ⟨(hforward hinit).1, le_refl _⟩
    · rw [hinit'] at hnone
      cases hnone
  | sampled _ hinit hvalid hjump hlive hinit' hwindow herrors hpcr hunwrapped harrival =>
    exact h.sampled hinit hforward hjump hwindow harrival hunwrapped hinit'

/-! ## Arrival order -/

theorem arrivals_along (us : List PcrInput) (x : PcrTrack δ × PcrStats δ)
    (hlast : x.1.initialized = true → ∀ u ∈ us, x.1.lastArrivalNs ≤ u.arrivalNs)
    (hsorted : us.Pairwise (fun u v => u.arrivalNs ≤ v.arrivalNs)) :
    Along (fun x u => x.1.initialized = true → x.1.lastArrivalNs ≤ u.arrivalNs) observe x us := by
  induction us generalizing x with
  | nil => exact trivial
  | cons u us ih =>
    obtain ⟨hu, hus⟩ := List.pairwise_cons.mp hsorted
    refine ⟨fun hinit => hlast hinit u List.mem_cons_self, ih _ ?_ hus⟩
    show (tsaPcrTrackUpdate x.1 x.2 u).1.initialized = true → _
    have heffect := update_effect x.1 x.2 u
    unfold observe
    generalize (tsaPcrTrackUpdate x.1 x.2 u).1 = t' at heffect ⊢
    generalize (tsaPcrTrackUpdate x.1 x.2 u).2.1 = s' at heffect ⊢
    intro hinit' v hv
    cases heffect with
    | ignored hinit hvalid => exact hlast hinit' v (List.mem_cons_of_mem _ hv)
    | started hinit hvalid => exact hu v hv
    | reset _ hinit hjump hlive hnone hwindow hhead herrors =>
      rw [hnone] at hinit'
      cases hinit'
    | arrived _ hinit hvalid hlive _ hwindow herrors hpcr hunwrapped harrival =>
      rw [harrival]
      exact hu v hv
    | sampled _ hinit hvalid hjump hlive _ hwindow herrors hpcr hunwrapped harrival =>
      rw [harrival]
      exact hu v hv

/-! ## The differences -/

omit [Double δ] in
theorem Timed.noWrap_iff (h : Timed t) (hforward : t.Forward u) :
    (t.Regresses u → NoWrap (t.sampled u)) ↔ (t.Regresses u → t.FirstIsOldest u) := by
  refine imp_congr_right fun hregress => ?_
  obtain ⟨hinit, -, hjump, -⟩ := hregress
  exact RingWindow.push_first_le_iff h.shaped h.ordered (h.before_sample hinit hforward hjump)

/-- **The differences of the regression**: for arrivals in order, no difference of any regression
    wraps around exactly when every regression finds slot 0 oldest. -/
theorem differences_iff (pid programId : Nat) (s : PcrStats δ) (us : List PcrInput)
    (harrivals : us.Pairwise fun u v => u.arrivalNs ≤ v.arrivalNs)
    (hrange : Along (fun x u => x.1.initialized = true → ¬ x.1.Jumps u →
        x.1.lastUnwrappedPcrNs + tsaPcrToNs (x.1.deltaTicks u) < 2 ^ 64)
      observe (tsaPcrTrackInit pid programId, s) us) :
    Along (fun x u => x.1.Regresses u → NoWrap (x.1.sampled u)) observe
        (tsaPcrTrackInit pid programId, s) us ↔
      Along (fun x u => x.1.Regresses u → x.1.FirstIsOldest u) observe
        (tsaPcrTrackInit pid programId, s) us := by
  have harrive := arrivals_along us (tsaPcrTrackInit pid programId, s)
    (fun hinit => by cases hinit) harrivals
  have hforward : Along (fun x u => x.1.Forward u) observe (tsaPcrTrackInit pid programId, s) us :=
    along_of_along (I := fun _ => True) (fun _ _ _ _ => trivial)
      (fun _ _ _ h hinit => ⟨h.1 hinit, h.2 hinit⟩) us _ trivial (along_and harrive hrange)
  have hkept : ∀ (x : PcrTrack δ × PcrStats δ) u, Timed x.1 → x.1.Forward u →
      Timed (observe x u).1 := fun x u hx hu => hx.update x.2 hu
  exact along_iff_of_along (I := fun x : PcrTrack δ × PcrStats δ => Timed x.1) hkept
    (fun _ _ hx hu => hx.noWrap_iff hu) us _ (.of_empty rfl rfl) hforward

/-- Observations every 10 ms, on time. -/
def onTime (k : Nat) : PcrInput := ⟨270000 * k, 10000000 * k, 10 * k, 100 * k, false⟩

def newTrack : PcrTrack ℚ × PcrStats ℚ := (tsaPcrTrackInit 256 0, PcrStats.zero)

/-- The first regressions are free of wrap-around. -/
theorem first_regression_forward :
    (((List.range 11).foldl (fun x k => observe x (onTime k)) newTrack).1.Regresses (onTime 11)) ∧
      Along (fun x u => x.1.Regresses u → NoWrap (x.1.sampled u)) observe newTrack
        ((List.range 13).map onTime) := by
  refine ⟨by decide +kernel, (differences_iff 256 0 PcrStats.zero _ ?_ ?_).mpr ?_⟩
  · decide +kernel
  · decide +kernel
  · decide +kernel

/-- **The 21st sample** overwrites slot 0: the other differences wrap around. -/
theorem lap_wraps :
    let x := ((List.range 21).map onTime).foldl observe newTrack
    x.1.Regresses (onTime 21) ∧ ¬ NoWrap (x.1.sampled (onTime 21)) ∧
      sinceFirst (x.1.sampled (onTime 21)) 1 =
        ⟨2 ^ 64 - 190000000, 2 ^ 64 - 190000000⟩ := by
  decide +kernel

end TsAnalyzer.Clock
