/-
  The PCR time axis (`last_unwrapped_pcr_ns`) against the PCRs it unwraps.

  1. **Program** — the first PCR and then every increment is converted to nanoseconds BY ITSELF and
     truncated (`tsa_pcr_to_ns`, a division by 27); the axis is their sum, in 64 bits.
  2. **Specification** — the ticks added up first (`pcrSum`), then converted once.
-/
import TsAnalyzer.Clock.PcrTrack

namespace TsAnalyzer.Clock

open Lib Packet List

variable {δ : Type} [Double δ]

/-! ## Specification -/

/-- From one PCR to the next, modulo `2^33 * 300`. -/
def increment (p q : Nat) : Nat := (q + pcrModulo - p) % pcrModulo

/-- The increments of the PCRs that follow `p`. -/
def increments : Nat → List Nat → List Nat
  | _, [] => []
  | p, q :: qs => increment p q :: increments q qs

/-- The first PCR and the increments: what is converted, one by one. -/
def axisParts (p : Nat) (qs : List Nat) : List Nat := p :: increments p qs

/-- The first PCR plus the sum of all increments. -/
def pcrSum (p : Nat) (qs : List Nat) : Nat := (axisParts p qs).sum

/-- The parts, converted one by one. -/
def partsNs (ticks : List Nat) : Nat := (ticks.map fun x => x * 1000 / 27).sum

/-- What the conversions lose, in 27ths of a nanosecond. -/
def lostNs27 (ticks : List Nat) : Nat := (ticks.map fun x => x * 1000 % 27).sum

theorem scaled_sum (ticks : List Nat) : ticks.sum * 1000 = 27 * partsNs ticks + lostNs27 ticks := by
  induction ticks with
  | nil => rfl
  | cons x ticks ih =>
    have hparts : partsNs (x :: ticks) = x * 1000 / 27 + partsNs ticks := sum_cons
    have hlost : lostNs27 (x :: ticks) = x * 1000 % 27 + lostNs27 ticks := sum_cons
    have hx : 27 * (x * 1000 / 27) + x * 1000 % 27 = x * 1000 := Nat.div_add_mod (x * 1000) 27
    calc (x :: ticks).sum * 1000 = x * 1000 + ticks.sum * 1000 := by
          rw [sum_cons, Nat.add_mul]
      _ = 27 * (x * 1000 / 27) + x * 1000 % 27 + (27 * partsNs ticks + lostNs27 ticks) := by
          rw [hx, ih]
      _ = 27 * (x * 1000 / 27 + partsNs ticks) + (x * 1000 % 27 + lostNs27 ticks) := by ring
      _ = 27 * partsNs (x :: ticks) + lostNs27 (x :: ticks) := by rw [hparts, hlost]

theorem sum_converted (ticks : List Nat) :
    ticks.sum * 1000 / 27 = partsNs ticks + lostNs27 ticks / 27 := by
  rw [scaled_sum, Nat.mul_add_div (by decide)]

/-! ## The axis -/

theorem ticksSince_eq {p q : Nat} (hp : p < pcrModulo) (hq : q < pcrModulo) :
    ticksSince p q = increment p q := by
  unfold ticksSince increment sub64
  have hsize : pcrModulo = 2576980377600 := rfl
  rw [hsize] at hp hq ⊢
  split <;> omega

theorem tsaPcrToNs_eq {x : Nat} (hx : x < pcrModulo) : tsaPcrToNs x = x * 1000 / 27 := by
  have hsize : pcrModulo = 2576980377600 := rfl
  rw [hsize] at hx
  have hvalid : x ≠ invalidPcr := by
    unfold invalidPcr
    omega
  rw [tsaPcrToNs, if_neg hvalid, Nat.mod_eq_of_lt (by omega)]

theorem increment_lt (p q : Nat) : increment p q < pcrModulo := Nat.mod_lt _ (by decide)

theorem valid_of_lt {u : PcrInput} (h : u.pcrTicks < pcrModulo) : u.Valid := by
  have hsize : pcrModulo = 2576980377600 := rfl
  unfold PcrInput.Valid invalidPcr
  omega

theorem observe_axis {x : PcrTrack δ × PcrStats δ} {u : PcrInput} (hinit : x.1.initialized = true)
    (hlast : x.1.lastPcrTicks < pcrModulo) (hu : u.pcrTicks < pcrModulo)
    (hstep : increment x.1.lastPcrTicks u.pcrTicks ≤ tsSystemClockHz * 5) :
    (observe x u).1.initialized = true ∧ (observe x u).1.lastPcrTicks = u.pcrTicks ∧
      (observe x u).1.lastUnwrappedPcrNs = (x.1.lastUnwrappedPcrNs +
        increment x.1.lastPcrTicks u.pcrTicks * 1000 / 27) % 2 ^ 64 := by
  have hdelta : x.1.deltaTicks u = increment x.1.lastPcrTicks u.pcrTicks := ticksSince_eq hlast hu
  have hjump : ¬ x.1.Jumps u := by
    rintro ⟨-, hlarge⟩
    omega
  have heffect := update_effect x.1 x.2 u
  unfold observe
  generalize (tsaPcrTrackUpdate x.1 x.2 u).1 = t' at heffect ⊢
  generalize (tsaPcrTrackUpdate x.1 x.2 u).2.1 = s' at heffect ⊢
  cases heffect with
  | ignored hnone => cases hinit.symm.trans hnone
  | started hnone => cases hinit.symm.trans hnone
  | reset _ _ hlarge => exact absurd hlarge hjump
  | arrived _ _ hvalid => exact absurd (valid_of_lt hu) hvalid
  | sampled _ _ hvalid _ hlive hinit' hwindow herrors hpcr hunwrapped harrival =>
    refine ⟨hinit', hpcr, ?_⟩
    rw [hunwrapped, PcrTrack.unwrappedNs, hdelta, tsaPcrToNs_eq (increment_lt _ _)]

theorem foldl_axis : ∀ (us : List PcrInput) (x : PcrTrack δ × PcrStats δ) (ns : Nat),
    x.1.initialized = true → x.1.lastPcrTicks < pcrModulo → x.1.lastUnwrappedPcrNs = ns % 2 ^ 64 →
    (∀ u ∈ us, u.pcrTicks < pcrModulo) →
    (∀ d ∈ increments x.1.lastPcrTicks (us.map PcrInput.pcrTicks), d ≤ tsSystemClockHz * 5) →
    (us.foldl observe x).1.lastUnwrappedPcrNs =
      (ns + partsNs (increments x.1.lastPcrTicks (us.map PcrInput.pcrTicks))) % 2 ^ 64 := by
  intro us
  induction us with
  | nil => exact fun x ns _ _ haxis _ _ => haxis
  | cons u us ih =>
    intro x ns hinit hlast haxis hrange hsteps
    have hu : u.pcrTicks < pcrModulo := hrange u mem_cons_self
    obtain ⟨hinit', hpcr, hnext⟩ := observe_axis hinit hlast hu (hsteps _ mem_cons_self)
    have hrest := ih (observe x u) (ns + increment x.1.lastPcrTicks u.pcrTicks * 1000 / 27) hinit'
      (hpcr ▸ hu) (by rw [hnext, haxis, Nat.mod_add_mod])
      (fun v hv => hrange v (mem_cons_of_mem _ hv))
      (by rw [hpcr]; exact fun d hd => hsteps d (mem_cons_of_mem _ hd))
    rw [foldl_cons, hrest, hpcr]
    simp only [partsNs, map_cons, increments, sum_cons, Nat.add_assoc]

/-- **The PCR time axis**: after any sequence of PCRs without a reset it is within 1 ns of the PCR
    sum exactly while the remainders of the conversions add up to less than 54, and the axis itself
    to less than `2^64`. -/
theorem unwrapped_within_iff (t : PcrTrack δ) (s : PcrStats δ) (u : PcrInput) (us : List PcrInput)
    (hinit : t.initialized = false) (hrange : ∀ v ∈ u :: us, v.pcrTicks < pcrModulo)
    (hsteps : ∀ d ∈ increments u.pcrTicks (us.map PcrInput.pcrTicks), d ≤ tsSystemClockHz * 5) :
    let axis := ((u :: us).foldl observe (t, s)).1.lastUnwrappedPcrNs
    let sum := pcrSum u.pcrTicks (us.map PcrInput.pcrTicks)
    (axis ≤ sum * 1000 / 27 + 1 ∧ sum * 1000 / 27 ≤ axis + 1) ↔
      lostNs27 (axisParts u.pcrTicks (us.map PcrInput.pcrTicks)) < 54 ∧
        partsNs (axisParts u.pcrTicks (us.map PcrInput.pcrTicks)) < 2 ^ 64 := by
  have hu : u.pcrTicks < pcrModulo := hrange u mem_cons_self
  have hvalid : u.Valid := valid_of_lt hu
  have hstart : observe (t, s) u = (t.start u, s) := by
    simp only [observe, update_of_start hinit hvalid]
  have hfirst : (t.start u).lastUnwrappedPcrNs = u.pcrTicks * 1000 / 27 % 2 ^ 64 := by
    have hsize : pcrModulo = 2576980377600 := rfl
    show tsaPcrToNs u.pcrTicks = _
    rw [tsaPcrToNs_eq hu]
    omega
  have haxis := foldl_axis us (t.start u, s) (u.pcrTicks * 1000 / 27) rfl hu hfirst
    (fun v hv => hrange v (mem_cons_of_mem _ hv)) hsteps
  have hparts : u.pcrTicks * 1000 / 27 +
      partsNs (increments (t.start u, s).1.lastPcrTicks (us.map PcrInput.pcrTicks)) =
      partsNs (axisParts u.pcrTicks (us.map PcrInput.pcrTicks)) := rfl
  simp only [foldl_cons, hstart, pcrSum]
  rw [haxis, hparts, sum_converted]
  generalize partsNs (axisParts u.pcrTicks (us.map PcrInput.pcrTicks)) = parts
  generalize lostNs27 (axisParts u.pcrTicks (us.map PcrInput.pcrTicks)) = lost
  omega

/-- A PCR that arrives at no particular time. -/
def pcrAt (pcrTicks : Nat) : PcrInput := ⟨pcrTicks, 0, 0, 0, false⟩

/-- Across the wrap of the PCR, the axis goes on. -/
theorem wrap_within :
    let x := ([pcrModulo - 2700, 2700].map pcrAt).foldl observe
      ((tsaPcrTrackInit 256 0, PcrStats.zero) : PcrTrack ℚ × PcrStats ℚ)
    x.1.lastUnwrappedPcrNs ≤ pcrSum (pcrModulo - 2700) [2700] * 1000 / 27 + 1 ∧
      pcrSum (pcrModulo - 2700) [2700] * 1000 / 27 ≤ x.1.lastUnwrappedPcrNs + 1 :=
  (unwrapped_within_iff (tsaPcrTrackInit 256 0 : PcrTrack ℚ) PcrStats.zero
    (pcrAt (pcrModulo - 2700)) [pcrAt 2700] rfl (by decide) (by decide)).mpr (by decide)

/-- **One tick at a time**: after 54 increments of one tick the axis is 2 ns behind. -/
theorem axis_drifts :
    let x := ((range 55).map pcrAt).foldl observe
      ((tsaPcrTrackInit 256 0, PcrStats.zero) : PcrTrack ℚ × PcrStats ℚ)
    x.1.lastUnwrappedPcrNs = 1998 ∧ pcrSum 0 ((range 54).map (· + 1)) * 1000 / 27 = 2000 := by
  decide +kernel

end TsAnalyzer.Clock
