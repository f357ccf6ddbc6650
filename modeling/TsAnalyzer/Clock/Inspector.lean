/-
  The clock inspector (`src/tsa_clock.c`): RESET, SYNCING and LOCKED, fed with PCR packets.

  1. **Program** — `tsa_clock_update`: a PCR below the last one, or a discontinuity flag, resets;
     ten PCRs at most 100 ms apart lock; a gap of more than 50 ms is an error and unlocks.
  2. **Specification** — the distance of two PCRs modulo `2^33 * 300` (`pcrStep`).
-/
import TsAnalyzer.Clock.PcrTrack

namespace TsAnalyzer.Clock.Inspector

open Lib Packet

variable {δ : Type} [Double δ]

/-! ## Data -/

/-- `PCR_REPETITION_MAX_TICKS` of this file: 50 ms. -/
def pcrRepetitionMaxTicks : Nat := 1350000
/-- `PCR_SYNC_THRESHOLD_TICKS`: 100 ms. -/
def pcrSyncThresholdTicks : Nat := tsSystemClockHz / 10
def pcrStabilizeCount : Nat := 10

inductive ClockState
  | reset | syncing | locked
  deriving DecidableEq

/-- `tsa_clock_inspector_t`, without its PID, its configured interval and `br_est`: none of them is
    read here. -/
structure ClockInspector (δ : Type) where
  state : ClockState
  initialized : Bool
  lastPcrVal : Nat
  lastPcrLocalNs : Nat
  pcrJitterMs : δ
  pcrCount : Nat
  priority1Errors : Nat
  filteredRate : δ
  lastErrorPcrVal : Nat
  pendingDiscontinuity : Bool

/-! ## Program -/

def tsaPcrToNsF (pcrTicks : δ) : δ :=
  pcrTicks * Double.lit 1000000000 / Double.lit tsSystemClockHz

namespace ClockInspector

/-- `tsa_clock_reset`; the errors stay. -/
def tsaClockReset (c : ClockInspector δ) : ClockInspector δ :=
  { c with state := .reset, initialized := false, lastPcrVal := 0, lastPcrLocalNs := 0,
           pcrCount := 0, filteredRate := Double.lit (27 / 1000), pendingDiscontinuity := false,
           lastErrorPcrVal := 0 }

variable (c : ClockInspector δ) (pcr nowNs : Nat)

def arrivalDeltaNs : Nat :=
  if c.lastPcrLocalNs < nowNs then sub64 nowNs c.lastPcrLocalNs else 0

/-- RESET: the first PCR. -/
def adopt : ClockInspector δ :=
  { c with lastPcrVal := pcr, lastPcrLocalNs := nowNs, state := .syncing, pcrCount := 1,
           initialized := true }

/-- `pcr_count` while SYNCING. -/
def syncCount : Nat :=
  if pcrSyncThresholdTicks < sub64 pcr c.lastPcrVal then 1 else (c.pcrCount + 1) % 2 ^ 64

def sync : ClockInspector δ :=
  { c with pcrCount := c.syncCount pcr, lastPcrVal := pcr, lastPcrLocalNs := nowNs,
           state := if pcrStabilizeCount ≤ c.syncCount pcr then .locked else c.state }

/-- A violation that was not counted before: back to SYNCING. -/
def caught : ClockInspector δ :=
  { c with priority1Errors := (c.priority1Errors + 1) % 2 ^ 32, lastErrorPcrVal := c.lastPcrVal,
           state := .syncing, pcrCount := 1, lastPcrVal := pcr, lastPcrLocalNs := nowNs }

/-- The alpha-beta filter. -/
def filtered : ClockInspector δ :=
  if 0 < c.arrivalDeltaNs nowNs ∧ c.arrivalDeltaNs nowNs < 1000000000 then
    let arrival : δ := Double.lit (c.arrivalDeltaNs nowNs)
    let predicted := c.filteredRate * arrival
    let residual := Double.lit (sub64 pcr c.lastPcrVal) - predicted
    let instantJitter := tsaPcrToNsF residual / Double.lit 1000000
    { c with filteredRate := c.filteredRate + Double.lit (5 / 1000) / arrival * residual
             pcrJitterMs := c.pcrJitterMs * Double.lit (9 / 10) +
               instantJitter * Double.lit (1 / 10) }
  else c

/-- LOCKED, without an error. -/
def trace : ClockInspector δ :=
  { c.filtered pcr nowNs with lastPcrVal := pcr, lastPcrLocalNs := nowNs
                              pcrCount := (c.pcrCount + 1) % 2 ^ 64 }

/-- LOCKED. -/
def monitor (isLive : Bool) : ClockInspector δ :=
  if pcrRepetitionMaxTicks < sub64 pcr c.lastPcrVal ∨
      (isLive = true ∧ pcrArrivalMaxNs < c.arrivalDeltaNs nowNs) then
    if tsSystemClockHz * 5 < sub64 pcr c.lastPcrVal then c.tsaClockReset
    else if c.lastErrorPcrVal ≠ c.lastPcrVal then c.caught pcr nowNs
    else c.trace pcr nowNs
  else c.trace pcr nowNs

def Breaks (packet : Nat → UInt8) : Prop :=
  packet 5 &&& 0x80 ≠ 0 ∨ (c.initialized = true ∧ tsaPktGetPcr packet < c.lastPcrVal)
deriving Decidable

def tsaClockUpdate (packet : Nat → UInt8) (isLive : Bool) : ClockInspector δ :=
  let pcr := tsaPktGetPcr packet
  if pcr = invalidPcr then c
  else
    let c := if c.Breaks packet then c.tsaClockReset else c
    match c.state with
    | .reset => c.adopt pcr nowNs
    | .syncing => c.sync pcr nowNs
    | .locked => c.monitor pcr nowNs isLive

end ClockInspector

/-! ## Specification -/

/-- From one PCR to the next, modulo `2^33 * 300`; the extension may be out of range, so a PCR is
    below twice the modulus only. -/
def pcrStep (p q : Nat) : Nat := (q + 2 * pcrModulo - p) % pcrModulo

/-- A PCR packet and its arrival. -/
structure Arrival where
  packet : Nat → UInt8
  nowNs : Nat

def Arrival.pcr (x : Arrival) : Nat := tsaPktGetPcr x.packet

/-- It has a PCR, and no discontinuity flag. -/
def Arrival.Plain (x : Arrival) : Prop :=
  tsaPktGetPcr x.packet ≠ invalidPcr ∧ x.packet 5 &&& 0x80 = 0

instance (x : Arrival) : Decidable x.Plain := inferInstanceAs (Decidable (_ ∧ _))

/-- Two PCRs with a step that is positive and at most 5 s. -/
def Spaced (p q : Nat) : Prop := 0 < pcrStep p q ∧ pcrStep p q ≤ tsSystemClockHz * 5
deriving Decidable

/-- One update in non-live mode. -/
def inspect (c : ClockInspector δ) (x : Arrival) : ClockInspector δ :=
  c.tsaClockUpdate x.nowNs x.packet false

/-- While LOCKED, only a step of more than 50 ms unlocks, and each one is counted once. -/
def LockKept (c : ClockInspector δ) (x : Arrival) : Prop :=
  c.state = .locked →
    ((inspect c x).state ≠ .locked → pcrRepetitionMaxTicks < pcrStep c.lastPcrVal x.pcr) ∧
    (inspect c x).priority1Errors = c.priority1Errors +
      if pcrRepetitionMaxTicks < pcrStep c.lastPcrVal x.pcr then 1 else 0
deriving Decidable

/-- While LOCKED, no PCR is behind a wrap, and the error counter does not overflow. -/
def WrapFree (c : ClockInspector δ) (x : Arrival) : Prop :=
  c.state = .locked →
    c.lastPcrVal + pcrStep c.lastPcrVal x.pcr = x.pcr ∧
    (pcrRepetitionMaxTicks < pcrStep c.lastPcrVal x.pcr → c.priority1Errors + 1 < 2 ^ 32)
deriving Decidable

/-- As allocated, or as a reset leaves it. -/
def AtReset (c : ClockInspector δ) : Prop :=
  c.state = .reset ∧ c.initialized = false ∧ c.lastErrorPcrVal = 0

/-! ## What an update does -/

theorem pcrTicks_lt (p : Nat → UInt8) : pcrTicks p < 2 * pcrModulo := by
  have hbase := pcrBase_lt p
  have hext := pcrExt_lt p
  unfold pcrTicks pcrModulo
  omega

section Plain

variable {c : ClockInspector δ} {x : Arrival} (hx : x.Plain)
include hx

theorem Arrival.Plain.pcr_lt : x.pcr < 2 * pcrModulo := by
  have hsome := hx.1
  unfold Arrival.pcr
  unfold tsaPktGetPcr at hsome ⊢
  split_ifs at hsome ⊢
  · exact absurd rfl hsome
  · exact absurd rfl hsome
  · exact absurd rfl hsome
  · exact pcrTicks_lt x.packet

omit [Double δ] in
theorem breaks_iff : c.Breaks x.packet ↔ c.initialized = true ∧ x.pcr < c.lastPcrVal := by
  refine ⟨?_, Or.inr⟩
  rintro (hflag | hback)
  · exact absurd hx.2 hflag
  · exact hback

theorem inspect_of_break (hinit : c.initialized = true) (hback : x.pcr < c.lastPcrVal) :
    inspect c x = c.tsaClockReset.adopt x.pcr x.nowNs := by
  have hbreak : c.Breaks x.packet := (breaks_iff hx).mpr ⟨hinit, hback⟩
  simp only [inspect, ClockInspector.tsaClockUpdate, if_neg hx.1, if_pos hbreak,
    ClockInspector.tsaClockReset, Arrival.pcr]

theorem inspect_of_state (hforward : c.initialized = true → c.lastPcrVal ≤ x.pcr) :
    (c.state = .reset → inspect c x = c.adopt x.pcr x.nowNs) ∧
    (c.state = .syncing → inspect c x = c.sync x.pcr x.nowNs) ∧
    (c.state = .locked → inspect c x = c.monitor x.pcr x.nowNs false) := by
  have hbreak : ¬ c.Breaks x.packet := by
    rw [breaks_iff hx]
    rintro ⟨hinit, hback⟩
    exact absurd (hforward hinit) (Nat.not_le.mpr hback)
  refine ⟨fun h => ?_, fun h => ?_, fun h => ?_⟩ <;>
    simp only [inspect, ClockInspector.tsaClockUpdate, if_neg hx.1, if_neg hbreak, h, Arrival.pcr]

end Plain

theorem trace_fields (c : ClockInspector δ) (pcr nowNs : Nat) :
    (c.trace pcr nowNs).state = c.state ∧ (c.trace pcr nowNs).initialized = c.initialized ∧
      (c.trace pcr nowNs).lastPcrVal = pcr ∧
      (c.trace pcr nowNs).lastErrorPcrVal = c.lastErrorPcrVal ∧
      (c.trace pcr nowNs).priority1Errors = c.priority1Errors := by
  unfold ClockInspector.trace ClockInspector.filtered
  split_ifs <;> exact ⟨rfl, rfl, rfl, rfl, rfl⟩

/-! ## The invariant -/

/-- In every state of a run: the last error is not above the last PCR, and below it where a
    violation can be counted. -/
structure Sound (c : ClockInspector δ) : Prop where
  initialized : c.initialized = true ↔ c.state ≠ .reset
  forgotten : c.state = .reset → c.lastErrorPcrVal = 0
  behind : c.state ≠ .reset → c.lastErrorPcrVal ≤ c.lastPcrVal
  counted : c.state = .locked → c.lastErrorPcrVal < c.lastPcrVal

omit [Double δ] in
theorem AtReset.sound {c : ClockInspector δ} (h : AtReset c) : Sound c := by
  obtain ⟨hstate, hinit, herror⟩ := h
  constructor
  · rw [hinit, hstate]
    decide
  · exact fun _ => herror
  · exact fun hne => absurd hstate hne
  · intro hlocked
    rw [hstate] at hlocked
    cases hlocked

theorem reset_atReset (c : ClockInspector δ) : AtReset c.tsaClockReset := ⟨rfl, rfl, rfl⟩

omit [Double δ] in
theorem Sound.adopt {c : ClockInspector δ} (pcr nowNs : Nat) (herror : c.lastErrorPcrVal = 0) :
    Sound (c.adopt pcr nowNs) where
  initialized := iff_of_true rfl fun h => by cases h
  forgotten h := by cases h
  behind _ := le_of_eq_of_le herror (Nat.zero_le pcr)
  counted h := by cases h

omit [Double δ] in
theorem Sound.advance {c : ClockInspector δ} (hstate : c.state ≠ .reset)
    (hinit : c.initialized = true) (herror : c.lastErrorPcrVal < c.lastPcrVal) : Sound c where
  initialized := iff_of_true hinit hstate
  forgotten h := absurd h hstate
  behind _ := herror.le
  counted _ := herror

/-! ## Distances -/

theorem lt_of_spaced {p q : Nat} (h : Spaced p q) (hpq : p ≤ q) : p < q := by
  have hstep := h.1
  rcases Nat.lt_or_eq_of_le hpq with hlt | rfl
  · exact hlt
  · rw [pcrStep, Nat.add_sub_cancel_left, Nat.mul_mod_left] at hstep
    exact absurd hstep (Nat.lt_irrefl 0)

theorem add_pcrStep_eq_iff (p q : Nat) : p + pcrStep p q = q ↔ p ≤ q ∧ q < p + pcrModulo := by
  have hsize : pcrModulo = 2576980377600 := rfl
  unfold pcrStep
  rw [hsize]
  omega

theorem sub64_eq_pcrStep {p q : Nat} (hq : q < 2 * pcrModulo) (h : p + pcrStep p q = q) :
    sub64 q p = pcrStep p q := by
  have hsize : pcrModulo = 2576980377600 := rfl
  rw [hsize] at hq
  rw [sub64_of_le (by omega) (by omega)]
  omega

theorem add_pcrStep_of_near {p q : Nat} (hq : q < 2 * pcrModulo) (hlater : p < q)
    (hnear : sub64 q p ≤ tsSystemClockHz * 5) : p + pcrStep p q = q := by
  have hsize : pcrModulo = 2576980377600 := rfl
  have hhz : tsSystemClockHz = 27000000 := rfl
  rw [add_pcrStep_eq_iff]
  rw [hsize] at hq ⊢
  rw [hhz, sub64_of_le (by omega) (by omega)] at hnear
  omega

/-! ## One update -/

/-- A PCR packet without the flag, and not too far behind the last PCR, if there is one. -/
def Fed (c : ClockInspector δ) (x : Arrival) : Prop :=
  x.Plain ∧ (c.state ≠ .reset → Spaced c.lastPcrVal x.pcr)

/-- The five things it can do; LOCKED, the size of the gap decides. -/
inductive Inspected (c : ClockInspector δ) (x : Arrival) : ClockInspector δ → Prop
  | adopted (c₀ : ClockInspector δ) (hwhen : c.state = .reset ∨ x.pcr < c.lastPcrVal)
      (hforgotten : c₀.lastErrorPcrVal = 0) (herrors : c₀.priority1Errors = c.priority1Errors) :
      Inspected c x (c₀.adopt x.pcr x.nowNs)
  | synced (hstate : c.state = .syncing) (hlater : c.lastPcrVal < x.pcr) :
      Inspected c x (c.sync x.pcr x.nowNs)
  | jumped (hlocked : c.state = .locked)
      (hjump : tsSystemClockHz * 5 < sub64 x.pcr c.lastPcrVal) : Inspected c x c.tsaClockReset
  | caught (hlocked : c.state = .locked) (hlater : c.lastPcrVal < x.pcr)
      (hgap : pcrRepetitionMaxTicks < sub64 x.pcr c.lastPcrVal)
      (hnear : sub64 x.pcr c.lastPcrVal ≤ tsSystemClockHz * 5) :
      Inspected c x (c.caught x.pcr x.nowNs)
  | traced (hlocked : c.state = .locked) (hlater : c.lastPcrVal < x.pcr)
      (hquiet : sub64 x.pcr c.lastPcrVal ≤ pcrRepetitionMaxTicks) :
      Inspected c x (c.trace x.pcr x.nowNs)

section Step

variable {c : ClockInspector δ} {x : Arrival}

theorem monitored (hlocked : c.state = .locked) (hlater : c.lastPcrVal < x.pcr)
    (hnew : c.lastErrorPcrVal ≠ c.lastPcrVal) : Inspected c x (c.monitor x.pcr x.nowNs false) := by
  have hlive : ¬ (false = true ∧ pcrArrivalMaxNs < c.arrivalDeltaNs x.nowNs) :=
    fun h => by cases h.1
  unfold ClockInspector.monitor
  by_cases hgap : pcrRepetitionMaxTicks < sub64 x.pcr c.lastPcrVal
  · rw [if_pos (Or.inl hgap)]
    by_cases hjump : tsSystemClockHz * 5 < sub64 x.pcr c.lastPcrVal
    · rw [if_pos hjump]
      exact .jumped hlocked hjump
    · rw [if_neg hjump, if_pos hnew]
      exact .caught hlocked hlater hgap (Nat.not_lt.mp hjump)
  · rw [if_neg (not_or.mpr ⟨hgap, hlive⟩)]
    exact .traced hlocked hlater (Nat.not_lt.mp hgap)

theorem inspected (hc : Sound c) (hfed : Fed c x) : Inspected c x (inspect c x) := by
  obtain ⟨hx, hspaced⟩ := hfed
  by_cases hbreak : c.initialized = true ∧ x.pcr < c.lastPcrVal
  · rw [inspect_of_break hx hbreak.1 hbreak.2]
    exact .adopted _ (Or.inr hbreak.2) rfl rfl
  have hforward : c.initialized = true → c.lastPcrVal ≤ x.pcr := fun hinit =>
    Nat.not_lt.mp fun hback => hbreak ⟨hinit, hback⟩
  have hlater : c.state ≠ .reset → c.lastPcrVal < x.pcr := fun hne =>
    lt_of_spaced (hspaced hne) (hforward (hc.initialized.mpr hne))
  obtain ⟨hadopt, hsync, hmonitor⟩ := inspect_of_state hx hforward
  cases hstate : c.state with
  | reset =>
    rw [hadopt hstate]
    exact .adopted c (Or.inl hstate) (hc.forgotten hstate) rfl
  | syncing =>
    rw [hsync hstate]
    exact .synced hstate (hlater (by rw [hstate]; decide))
  | locked =>
    rw [hmonitor hstate]
    exact monitored hstate (hlater (by rw [hstate]; decide)) (hc.counted hstate).ne

theorem Inspected.last {c' : ClockInspector δ} (h : Inspected c x c') (hstate : c'.state ≠ .reset) :
    c'.lastPcrVal = x.pcr := by
  cases h with
  | adopted | synced | caught => rfl
  | jumped => exact absurd rfl hstate
  | traced => exact (trace_fields c x.pcr x.nowNs).2.2.1

theorem Inspected.sound {c' : ClockInspector δ} (h : Inspected c x c') (hc : Sound c) :
    Sound c' := by
  have hinit : ∀ {s : ClockState}, s ≠ .reset → c.state = s → c.initialized = true :=
    fun hne hs => hc.initialized.mpr (by rwa [hs])
  cases h with
  | adopted c₀ _ hforgotten => exact .adopt _ _ hforgotten
  | synced hstate hlater =>
    refine .advance ?_ (hinit (by decide) hstate)
      (lt_of_le_of_lt (hc.behind (by rw [hstate]; decide)) hlater)
    rw [ClockInspector.sync, hstate]
    split <;> exact fun h => by cases h
  | jumped => exact (reset_atReset c).sound
  | caught hlocked hlater =>
    exact .advance (fun h => by cases h) (hinit (by decide) hlocked) hlater
  | traced hlocked hlater =>
    obtain ⟨hstate, hinit', hpcr, herror, -⟩ := trace_fields c x.pcr x.nowNs
    refine .advance ?_ ?_ ?_
    · rw [hstate, hlocked]
      decide
    · rw [hinit']
      exact hinit (by decide) hlocked
    · rw [herror, hpcr]
      exact (hc.counted hlocked).trans hlater

theorem not_lockKept_of_silent (hlocked : c.state = .locked)
    (hstate : (inspect c x).state ≠ .locked)
    (herrors : (inspect c x).priority1Errors = c.priority1Errors) : ¬ LockKept c x := by
  intro hkept
  obtain ⟨hunlocks, hcount⟩ := hkept hlocked
  rw [if_pos (hunlocks hstate), herrors] at hcount
  omega

/-- One update does what it should exactly if there is no wrap between, up to the size of the
    counter. -/
theorem lockKept_iff (hc : Sound c) (hfed : Fed c x) : LockKept c x ↔ WrapFree c x := by
  by_cases hlocked : c.state = .locked
  swap
  · exact iff_of_true (fun h => absurd h hlocked) (fun h => absurd h hlocked)
  have hpcr := hfed.1.pcr_lt
  have hstep := (hfed.2 (by rw [hlocked]; decide)).2
  have heffect := inspected hc hfed
  have hsilent := not_lockKept_of_silent (x := x) hlocked
  unfold LockKept WrapFree at *
  generalize inspect c x = c' at heffect hsilent ⊢
  cases heffect with
  | adopted c₀ hwhen _ herrors =>
    refine iff_of_false (hsilent (fun h => by cases h) herrors) fun h => ?_
    rcases hwhen with hreset | hback
    · cases hlocked.symm.trans hreset
    · have := (h hlocked).1
      omega
  | synced hstate => cases hlocked.symm.trans hstate
  | jumped _ hjump =>
    refine iff_of_false (hsilent (fun h => by cases h) rfl) fun h => ?_
    rw [sub64_eq_pcrStep hpcr (h hlocked).1] at hjump
    omega
  | caught _ hlater hgap hnear =>
    have hwrap := add_pcrStep_of_near hpcr hlater hnear
    rw [sub64_eq_pcrStep hpcr hwrap] at hgap
    simp only [hlocked, hwrap, hgap, if_true, ClockInspector.caught, forall_const, true_and,
      implies_true]
    omega
  | traced _ hlater hquiet =>
    have hwrap := add_pcrStep_of_near hpcr hlater (hquiet.trans (by decide))
    obtain ⟨hstate, -, -, -, herrors⟩ := trace_fields c x.pcr x.nowNs
    rw [sub64_eq_pcrStep hpcr hwrap] at hquiet
    simp only [hstate, herrors, hlocked, hwrap, Nat.not_lt.mpr hquiet, if_false, ne_eq,
      not_true_eq_false, false_implies, Nat.add_zero, and_self, implies_true]

end Step

/-! ## Runs -/

theorem along_fed (xs : List Arrival) (c : ClockInspector δ) (hc : Sound c)
    (hplain : ∀ x ∈ xs, x.Plain) (hchain : xs.IsChain (fun x y => Spaced x.pcr y.pcr))
    (hfirst : c.state ≠ .reset → ∀ x ∈ xs.head?, Spaced c.lastPcrVal x.pcr) :
    Along Fed inspect c xs := by
  induction xs generalizing c with
  | nil => exact trivial
  | cons x xs ih =>
    have hfed : Fed c x := ⟨hplain x List.mem_cons_self, fun hne => hfirst hne x rfl⟩
    have heffect := inspected hc hfed
    refine ⟨hfed, ih _ (heffect.sound hc) (fun y hy => hplain y (List.mem_cons_of_mem x hy))
      hchain.tail fun hne y hy => ?_⟩
    rw [heffect.last hne]
    exact (List.isChain_cons.mp hchain).1 y hy

/-- **The lock, and the errors while it lasts.**  From a reset on, over PCRs that are spaced modulo
    the wrap, the lock is left at gaps of more than 50 ms only, and each of them is one error,
    exactly if no PCR seen while LOCKED is behind a wrap (and the 32-bit counter has room). -/
theorem lock_kept_iff (c : ClockInspector δ) (xs : List Arrival) (hc : AtReset c)
    (hplain : ∀ x ∈ xs, x.Plain) (hchain : xs.IsChain fun x y => Spaced x.pcr y.pcr) :
    Along LockKept inspect c xs ↔ Along WrapFree inspect c xs := by
  refine along_iff_of_along (R := Fed) (I := Sound)
    (fun c x hc hfed => (inspected hc hfed).sound hc)
    (fun c x hc hfed => lockKept_iff hc hfed) xs c hc.sound ?_
  exact along_fed xs c hc.sound hplain hchain fun hne => absurd hc.1 hne

/-- A packet with this PCR. -/
def packetAt (ticks : Nat) : Nat → UInt8 := fun i =>
  let base := ticks / 300
  let ext := ticks % 300
  [0x47, 0x01, 0x00, 0x20, 183, 0x10, UInt8.ofNat (base >>> 25), UInt8.ofNat (base >>> 17),
    UInt8.ofNat (base >>> 9), UInt8.ofNat (base >>> 1),
    UInt8.ofNat (base % 2 * 128 + 126 + ext / 256), UInt8.ofNat ext].getD i 0xFF

/-- Allocated with `calloc`. -/
def zeroed : ClockInspector ℚ := ⟨.reset, false, 0, 0, 0, 0, 0, 0, 0, false⟩

/-- Ten PCRs, 10 ms apart, from `ticks` on. -/
def lockingRun (ticks : Nat) : List Arrival :=
  (List.range 10).map fun k => ⟨packetAt (ticks + 270000 * k), 10000000 * k⟩

/-- Locked from zero on, then 10 ms and 60 ms. -/
def gapRun : List Arrival :=
  lockingRun 0 ++ [⟨packetAt 2700000, 100000000⟩, ⟨packetAt 4320000, 160000000⟩]

/-- The first step keeps the lock, the second is one error. -/
theorem lock_then_gap :
    AtReset zeroed ∧ (∀ x ∈ gapRun, x.Plain) ∧ (gapRun.IsChain fun x y => Spaced x.pcr y.pcr) ∧
      Along LockKept inspect zeroed gapRun ∧
      (gapRun.foldl inspect zeroed).priority1Errors = 1 := by
  have hplain : ∀ x ∈ gapRun, x.Plain := by decide +kernel
  have hchain : gapRun.IsChain fun x y => Spaced x.pcr y.pcr := by decide +kernel
  refine ⟨⟨rfl, rfl, rfl⟩, hplain, hchain, ?_, by decide +kernel⟩
  exact (lock_kept_iff zeroed gapRun ⟨rfl, rfl, rfl⟩ hplain hchain).mpr (by decide +kernel)

/-- Locked 2500000 ticks below the wrap, then 10 ms on. -/
def wrapRun : List Arrival := lockingRun 2576977877600 ++ [⟨packetAt 200000, 100000000⟩]

/-- The PCR behind the wrap drops the lock, and there is no error. -/
theorem wrap_unlocks :
    AtReset zeroed ∧ (∀ x ∈ wrapRun, x.Plain) ∧ (wrapRun.IsChain fun x y => Spaced x.pcr y.pcr) ∧
      ((lockingRun 2576977877600).foldl inspect zeroed).state = .locked ∧
      (wrapRun.foldl inspect zeroed).state = .syncing ∧
      (wrapRun.foldl inspect zeroed).priority1Errors = 0 ∧
      ¬ Along LockKept inspect zeroed wrapRun := by
  refine ⟨⟨rfl, rfl, rfl⟩, ?_, ?_, ?_, ?_, ?_, ?_⟩ <;> decide +kernel

end TsAnalyzer.Clock.Inspector
