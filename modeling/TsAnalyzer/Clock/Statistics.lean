/-
  What the tracks of a handle report to its statistics (`track->live`).

  All tracks of a handle point to the same statistics: the largest PCR distance
  (`pcr_repetition_max_ms`) and the jitter histogram.  `tsa_create` sets the pointer and nobody else
  does, but a RESET clears it: from its first jump of more than 5 s on, a PID reports nothing.
-/
import TsAnalyzer.Clock.PcrTrack

namespace TsAnalyzer.Clock

open Lib

variable {δ : Type} [Double δ]

/-- `pcr_tracks` and what they write of `live`. -/
structure PcrEngine (δ : Type) where
  tracks : Nat → PcrTrack δ
  live : PcrStats δ

/-- As `tsa_create` leaves them. -/
def PcrEngine.fresh : PcrEngine δ := ⟨fun pid => tsaPcrTrackInit pid 0, PcrStats.zero⟩

/-- `tsa_pcr_track_update` on the track of a PID. -/
def PcrEngine.update (e : PcrEngine δ) (pid : Nat) (u : PcrInput) : PcrEngine δ :=
  let r := tsaPcrTrackUpdate (e.tracks pid) e.live u
  ⟨Function.update e.tracks pid r.1, r.2.1⟩

theorem PcrEngine.update_self (e : PcrEngine δ) (pid : Nat) (u : PcrInput) :
    (e.update pid u).tracks pid = (tsaPcrTrackUpdate (e.tracks pid) e.live u).1 :=
  Function.update_self ..

theorem PcrEngine.update_effect (e : PcrEngine δ) (pid : Nat) (u : PcrInput) :
    UpdateEffect (e.tracks pid) e.live u ((e.update pid u).tracks pid) (e.update pid u).live :=
  (e.update_self pid u).symm ▸ Clock.update_effect (e.tracks pid) e.live u

variable {pid : Nat}

theorem PcrEngine.update_other (e : PcrEngine δ) {i : Nat} (h : i ≠ pid) (u : PcrInput) :
    (e.update pid u).tracks i = e.tracks i := Function.update_of_ne h ..

/-! ## What is owed -/

/-- The update runs a regression, with this result. -/
def Fits (e : PcrEngine δ) (pid : Nat) (u : PcrInput) (f : Fit δ) : Prop :=
  (e.tracks pid).Regresses u ∧ pcrTrackRegress ((e.tracks pid).sampled u) = some f

/-- The update resets the track. -/
def Resets (e : PcrEngine δ) (pid : Nat) (u : PcrInput) : Prop :=
  (e.tracks pid).initialized = true ∧ (e.tracks pid).Jumps u
deriving Decidable

/-! ## One update -/

variable {e : PcrEngine δ}

/-- One update, with its PID if it resets the track. -/
def trackPush (e : PcrEngine δ) (x : Nat × PcrInput) : PcrEngine δ × List Nat :=
  (e.update x.1 x.2, if Resets e x.1 x.2 then [x.1] else [])

theorem update_live (e : PcrEngine δ) (pid : Nat) (u : PcrInput) :
    ((e.update pid u).tracks pid).live = true ↔ (e.tracks pid).live = true ∧ ¬ Resets e pid u := by
  have heffect := e.update_effect pid u
  unfold Resets
  generalize (e.update pid u).tracks pid = t' at heffect ⊢
  generalize (e.update pid u).live = s' at heffect
  cases heffect with
  | ignored hinit hvalid => simp [hinit]
  | started hinit hvalid => simp [hinit, PcrTrack.start]
  | reset _ hinit hjump hlive => simp [hinit, hjump, hlive]
  | arrived _ hinit hvalid hlive => simp [hlive, PcrTrack.Jumps, hvalid]
  | sampled _ hinit hvalid hjump hlive => simp [hlive, hjump]

theorem update_kept (e : PcrEngine δ) (pid : Nat) {u : PcrInput} (hvalid : u.Valid)
    (hreset : ¬ Resets e pid u) : ((e.update pid u).tracks pid).initialized = true ∧
      ((e.update pid u).tracks pid).lastPcrTicks = u.pcrTicks := by
  have heffect := e.update_effect pid u
  generalize (e.update pid u).tracks pid = t' at heffect ⊢
  generalize (e.update pid u).live = s' at heffect
  cases heffect with
  | ignored _ hnone => exact absurd hvalid hnone
  | started => exact ⟨rfl, rfl⟩
  | reset _ hinit hjump => exact absurd ⟨hinit, hjump⟩ hreset
  | arrived _ _ hnone => exact absurd hvalid hnone
  | sampled _ _ _ _ _ hinit' _ _ hpcr => exact ⟨hinit', hpcr⟩

theorem update_reset {u : PcrInput} (hreset : Resets e pid u) :
    ((e.update pid u).tracks pid).initialized = false := by
  rw [PcrEngine.update_self, update_of_jump hreset.1 hreset.2]
  rfl

/-- A track is connected exactly if its PID was never reset. -/
def Connected (r : PcrEngine δ × List Nat) : Prop :=
  ∀ pid, (r.1.tracks pid).live = true ↔ pid ∉ r.2

theorem Connected.update {r : PcrEngine δ × List Nat} (h : Connected r) (x : Nat × PcrInput) :
    Connected (record trackPush r x) := by
  obtain ⟨pid, u⟩ := x
  intro i
  show ((r.1.update pid u).tracks i).live = true ↔
    i ∉ r.2 ++ (if Resets r.1 pid u then [pid] else [])
  by_cases hi : i = pid
  · subst hi
    rw [update_live, h i]
    by_cases hreset : Resets r.1 i u <;> simp [hreset]
  · rw [PcrEngine.update_other _ hi, h i]
    by_cases hreset : Resets r.1 pid u <;> simp [hreset, hi]

end TsAnalyzer.Clock
