/-
  The PCR clock (`src/tsa_pcr_clock.c`): a PCR time base against the system clock, with an
  exponential moving average of the rate between them.

  1. **Program** — the rate since the base is taken once a second has passed, and ACCEPTED between
     0.995 and 1.005; an accepted rate moves the average.
  2. **Specification** — an average of rates stays where the rates are, and moves towards them.
-/
import TsAnalyzer.Clock.PcrTrack

namespace TsAnalyzer.Clock

open Lib

/-! ## Program -/

structure PcrClock (δ : Type) where
  basePcrTicks : Nat
  baseSysNs : Nat
  lastPcrTicks : Nat
  lastSysNs : Nat
  unwrappedPcrTicks : Nat
  driftPpm : δ
  rateScale : δ
  established : Bool
  pcrCount : Nat

def unwrapPcr (current last unwrapped : Nat) : Nat :=
  if current < last ∧ pcrModulo / 2 < last - current then
    (unwrapped + (sub64 pcrModulo last + current)) % 2 ^ 64
  else if current < last then current
  else (unwrapped + (current - last)) % 2 ^ 64

namespace PcrClock

variable {δ : Type} [Double δ]

def tsaPcrClockInit : PcrClock δ := ⟨0, 0, 0, 0, 0, Double.lit 0, Double.lit 1, false, 0⟩

/-- `tsa_pcr_clock_reset`; the rate stays. -/
def tsaPcrClockReset (clk : PcrClock δ) : PcrClock δ :=
  { clk with established := false, pcrCount := 0, unwrappedPcrTicks := 0 }

variable (clk : PcrClock δ) (pcrTicks sysNs : Nat)

/-- The base: the first PCR. -/
def establish : PcrClock δ :=
  { clk with basePcrTicks := pcrTicks, baseSysNs := sysNs, lastPcrTicks := pcrTicks
             lastSysNs := sysNs, unwrappedPcrTicks := pcrTicks, established := true, pcrCount := 1 }

def unwrapped : Nat := unwrapPcr pcrTicks clk.lastPcrTicks clk.unwrappedPcrTicks

def nsPerPcrTick : δ := Double.lit 1000000000 / Double.lit tsSystemClockHz

variable (δ) in
/-- A product with `NS_PER_PCR_TICK`, as `uint64_t`. -/
def ticksToNs (ticks : Nat) : Nat :=
  (Double.trunc (Double.lit ticks * nsPerPcrTick : δ) % 2 ^ 64).toNat

def elapsedPcrNs : Nat := ticksToNs δ (sub64 (clk.unwrapped pcrTicks) clk.basePcrTicks)

def elapsedSysNs : Nat := sub64 sysNs clk.baseSysNs

def currentRate : δ :=
  Double.lit (clk.elapsedPcrNs pcrTicks) / Double.lit (clk.elapsedSysNs sysNs)

/-- The update takes the rate into the average. -/
def Accepts : Prop :=
  clk.established = true ∧ 1000000000 < clk.elapsedSysNs sysNs ∧
    Double.lt (Double.lit (995 / 1000)) (clk.currentRate pcrTicks sysNs) = true ∧
    Double.lt (clk.currentRate pcrTicks sysNs) (Double.lit (1005 / 1000)) = true
deriving Decidable

/-- The moving average. -/
def smoothed (rate : δ) : δ :=
  clk.rateScale * Double.lit (999 / 1000) + rate * Double.lit (1 / 100)

/-- The rate and the drift after the update. -/
def adjusted : PcrClock δ :=
  if clk.Accepts pcrTicks sysNs then
    let scale := clk.smoothed (clk.currentRate pcrTicks sysNs)
    { clk with rateScale := scale, driftPpm := (scale - Double.lit 1) * Double.lit 1000000 }
  else clk

def tsaPcrClockUpdate : PcrClock δ :=
  if clk.established = false then clk.establish pcrTicks sysNs
  else
    { clk.adjusted pcrTicks sysNs with
      unwrappedPcrTicks := clk.unwrapped pcrTicks, lastPcrTicks := pcrTicks, lastSysNs := sysNs
      pcrCount := (clk.pcrCount + 1) % 2 ^ 32 }

theorem update_rateScale : (clk.tsaPcrClockUpdate pcrTicks sysNs).rateScale =
    if clk.Accepts pcrTicks sysNs then clk.smoothed (clk.currentRate pcrTicks sysNs)
    else clk.rateScale := by
  unfold tsaPcrClockUpdate adjusted
  by_cases haccept : clk.Accepts pcrTicks sysNs
  · have hestablished : ¬ clk.established = false := by
      rw [haccept.1]
      decide
    rw [if_neg hestablished, if_pos haccept, if_pos haccept]
  · rw [if_neg haccept, if_neg haccept]
    split <;> rfl

end PcrClock

/-! ## Specification -/

inductive ClockCall
  | update (pcrTicks sysNs : Nat)
  | reset
  deriving DecidableEq

variable {δ : Type} [Double δ]

def ClockCall.run (clk : PcrClock δ) : ClockCall → PcrClock δ
  | .update pcrTicks sysNs => clk.tsaPcrClockUpdate pcrTicks sysNs
  | .reset => clk.tsaPcrClockReset

/-- The rate that a call takes into the average. -/
def ClockCall.accepted (clk : PcrClock δ) : ClockCall → Option δ
  | .update pcrTicks sysNs =>
    if clk.Accepts pcrTicks sysNs then some (clk.currentRate pcrTicks sysNs) else none
  | .reset => none

/-- The average is where the rates are, after the call. -/
def RateInRange (clk : PcrClock ℚ) (u : ClockCall) : Prop :=
  995 / 1000 ≤ (u.run clk).rateScale ∧ (u.run clk).rateScale ≤ 1005 / 1000
deriving Decidable

/-- No rate but `r` is accepted. -/
def OnlyRate (r : ℚ) (clk : PcrClock ℚ) (u : ClockCall) : Prop := ∀ q ∈ u.accepted clk, q = r
deriving Decidable

/-- An accepted rate does not take the average away from `r`. -/
def Approaches (r : ℚ) (clk : PcrClock ℚ) (u : ClockCall) : Prop :=
  u.accepted clk ≠ none → |(u.run clk).rateScale - r| ≤ |clk.rateScale - r|
deriving Decidable

def Rejects (clk : PcrClock ℚ) (u : ClockCall) : Prop := u.accepted clk = none

/-- If a rate is accepted then it is the first one, and `r` is far above 1. -/
def FirstAndFast (r : ℚ) (clk : PcrClock ℚ) (u : ClockCall) : Prop :=
  u.accepted clk ≠ none → clk.rateScale = 1 ∧ 1999 / 1990 ≤ r

/-! ## One call -/

variable {u : ClockCall}

theorem run_of_none {clk : PcrClock δ} (h : u.accepted clk = none) :
    (u.run clk).rateScale = clk.rateScale := by
  cases u with
  | reset => rfl
  | update pcrTicks sysNs =>
    have haccept : ¬ clk.Accepts pcrTicks sysNs := by
      intro haccept
      rw [ClockCall.accepted, if_pos haccept] at h
      cases h
    rw [ClockCall.run, PcrClock.update_rateScale, if_neg haccept]

variable {q r : ℚ} {clk : PcrClock ℚ}

theorem run_of_some (h : u.accepted clk = some q) :
    (u.run clk).rateScale = clk.rateScale * (999 / 1000) + q * (1 / 100) ∧
      995 / 1000 < q ∧ q < 1005 / 1000 := by
  cases u with
  | reset => cases h
  | update pcrTicks sysNs =>
    by_cases haccept : clk.Accepts pcrTicks sysNs
    · rw [ClockCall.accepted, if_pos haccept, Option.some.injEq] at h
      obtain ⟨-, -, habove, hbelow⟩ := id haccept
      rw [h] at habove hbelow
      refine ⟨?_, of_decide_eq_true habove, of_decide_eq_true hbelow⟩
      rw [ClockCall.run, PcrClock.update_rateScale, if_pos haccept, h]
      rfl
    · rw [ClockCall.accepted, if_neg haccept] at h
      cases h

/-- **Where it goes**: the distance to ten times the rate shrinks. -/
theorem toward_tenfold (h : u.accepted clk = some q) :
    10 * q - (u.run clk).rateScale = 999 / 1000 * (10 * q - clk.rateScale) := by
  rw [(run_of_some h).1]
  ring

theorem first_out_of_range (hone : clk.rateScale = 1) (h : u.accepted clk = some q) :
    1008 / 1000 < (u.run clk).rateScale := by
  obtain ⟨hrate, habove, -⟩ := run_of_some h
  rw [hrate, hone]
  linarith

theorem first_approaches_iff (hone : clk.rateScale = 1) (h : u.accepted clk = some r) :
    Approaches r clk u ↔ 1999 / 1990 ≤ r := by
  obtain ⟨hrate, habove, hbelow⟩ := run_of_some h
  have hafter : |(u.run clk).rateScale - r| = 999 / 1000 - 99 / 100 * r := by
    rw [hrate, hone, abs_of_nonneg (by linarith)]
    ring
  rw [Approaches, h, hafter, hone]
  rcases le_total r 1 with hr | hr
  · rw [abs_of_nonneg (by linarith)]
    refine iff_of_false (fun hle => ?_) (by linarith)
    have := hle (by simp)
    linarith
  · rw [abs_of_nonpos (by linarith)]
    refine ⟨fun hle => ?_, fun hle _ => by linarith⟩
    have := hle (by simp)
    linarith

/-- Above every rate, and below ten times this one: where the average is once it has moved. -/
def Adrift (r : ℚ) (clk : PcrClock ℚ) : Prop :=
  1005 / 1000 < clk.rateScale ∧ clk.rateScale < 10 * r

theorem Adrift.not_approaches (hclk : Adrift r clk) (h : u.accepted clk = some r) :
    ¬ Approaches r clk u ∧ Adrift r (u.run clk) := by
  obtain ⟨-, habove, hbelow⟩ := run_of_some h
  obtain ⟨hlow, hhigh⟩ := hclk
  have hmove := toward_tenfold h
  have hfarther : clk.rateScale < (u.run clk).rateScale := by linarith
  refine ⟨fun happroach => ?_, hlow.trans hfarther, by linarith⟩
  have hle := happroach (by rw [h]; simp)
  rw [abs_of_nonneg (by linarith), abs_of_nonneg (by linarith)] at hle
  linarith

/-! ## Runs -/

/-- Before the first accepted rate, and after it. -/
def Started (r : ℚ) (clk : PcrClock ℚ) : Prop := clk.rateScale = 1 ∨ Adrift r clk

theorem Started.run (hclk : Started r clk) (honly : OnlyRate r clk u) : Started r (u.run clk) := by
  cases haccepted : u.accepted clk with
  | none =>
    unfold Started Adrift
    rw [run_of_none haccepted]
    exact hclk
  | some q =>
    obtain rfl := honly q haccepted
    obtain ⟨-, habove, hbelow⟩ := run_of_some haccepted
    rcases hclk with hone | hdrift
    · have hout := first_out_of_range hone haccepted
      have hmove := toward_tenfold haccepted
      rw [hone] at hmove
      exact Or.inr ⟨by linarith, by linarith⟩
    · exact Or.inr (hdrift.not_approaches haccepted).2

theorem rateInRange_iff (hone : clk.rateScale = 1) : RateInRange clk u ↔ Rejects clk u := by
  unfold RateInRange Rejects
  cases haccepted : u.accepted clk with
  | none =>
    rw [run_of_none haccepted, hone]
    exact iff_of_true ⟨by norm_num, by norm_num⟩ rfl
  | some q =>
    have hout := first_out_of_range hone haccepted
    refine iff_of_false (fun h => ?_) (by simp)
    linarith [h.2]

theorem approaches_iff (hclk : Started r clk) (honly : OnlyRate r clk u) :
    Approaches r clk u ↔ FirstAndFast r clk u := by
  unfold FirstAndFast
  cases haccepted : u.accepted clk with
  | none => exact iff_of_true (fun h => absurd haccepted h) (fun h => absurd rfl h)
  | some q =>
    obtain rfl := honly q haccepted
    rcases hclk with hone | hdrift
    · rw [first_approaches_iff hone haccepted]
      exact ⟨fun h _ => ⟨hone, h⟩, fun h => (h (by simp)).2⟩
    · refine iff_of_false (hdrift.not_approaches haccepted).1 fun h => ?_
      have := hdrift.1
      have := (h (by simp)).1
      linarith

/-- **The rate estimate.**  It stays within 0.995 and 1.005 exactly if no rate is ever accepted.
    And where every accepted rate is `r`, it never moves away from `r` exactly if at most one call
    has its rate accepted, and `r` is then at least 1999/1990. -/
theorem rate_estimate_iff (us : List ClockCall) (r : ℚ) :
    (Along RateInRange ClockCall.run PcrClock.tsaPcrClockInit us ↔
      Along Rejects ClockCall.run PcrClock.tsaPcrClockInit us) ∧
    (Along (OnlyRate r) ClockCall.run PcrClock.tsaPcrClockInit us →
      (Along (Approaches r) ClockCall.run PcrClock.tsaPcrClockInit us ↔
        Along (FirstAndFast r) ClockCall.run PcrClock.tsaPcrClockInit us)) := by
  constructor
  · refine along_iff_while (I := fun clk : PcrClock ℚ => clk.rateScale = 1)
      (fun clk u hone hrange => ?_) (fun clk u hone => rateInRange_iff hone) us _ rfl
    rw [run_of_none ((rateInRange_iff hone).mp hrange), hone]
  · intro honly
    exact along_iff_of_along (I := Started r) (fun clk u hclk honly => hclk.run honly)
      (fun clk u hclk honly => approaches_iff hclk honly) us _ (Or.inl rfl) honly

/-- The base, then two seconds and three seconds at the exact rate. -/
def exactCalls : List ClockCall :=
  [.update 0 0, .update 54000000 2000000000, .update 81000000 3000000000]

/-- 1 is accepted twice: the estimate is 1.009, and then 1.017991. -/
theorem estimate_leaves :
    Along (OnlyRate 1) ClockCall.run PcrClock.tsaPcrClockInit exactCalls ∧
      (exactCalls.foldl ClockCall.run (PcrClock.tsaPcrClockInit : PcrClock ℚ)).rateScale =
        1017991 / 1000000 ∧
      ¬ Along RateInRange ClockCall.run PcrClock.tsaPcrClockInit exactCalls ∧
      ¬ Along (Approaches 1) ClockCall.run PcrClock.tsaPcrClockInit exactCalls := by
  decide +kernel

end TsAnalyzer.Clock
