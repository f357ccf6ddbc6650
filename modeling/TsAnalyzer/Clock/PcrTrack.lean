/-
  The PCR track of a PID (`src/tsa_pcr_track.c`): gaps between PCRs, the PCR time axis, the window
  of the linear regression and what it recovers, and the bitrates.

  Floating point is a parameter (`Lib.Double`).

  A RESET clears the whole track but its PID, its program and its error counter: the pointer to the
  statistics goes too, and the PCR that caused it is forgotten.
-/
import TsAnalyzer.Lib.Double
import TsAnalyzer.Lib.RingWindow
import TsAnalyzer.Lib.Run
import TsAnalyzer.Lib.Word
import TsAnalyzer.Packet.Pcr

namespace TsAnalyzer.Clock

open Lib Packet

/-! ## Data -/

def tsSystemClockHz : Nat := 27000000
def pcrModulo : Nat := 2 ^ 33 * 300
def pcrRepetitionMaxTicks : Nat := tsSystemClockHz * 40 / 1000
def pcrArrivalMaxNs : Nat := 100000000
def bitrateSettleIntervalNs : Nat := 100000000
def pcrTrackWindowSize : Nat := 20
def tsPacketBits : Nat := 1504

def tsaPcrToNs (pcrTicks : Nat) : Nat :=
  if pcrTicks = invalidPcr then 0 else pcrTicks * 1000 % 2 ^ 64 / 27

structure PcrSample where
  sysNs : Nat
  pcrNs : Nat
  deriving DecidableEq

/-- One sample is not after another on either axis. -/
instance samplePartialOrder : PartialOrder PcrSample :=
  PartialOrder.lift (fun s => (s.sysNs, s.pcrNs)) fun s t h => by
    cases s
    cases t
    simpa using h

instance (s t : PcrSample) : Decidable (s ≤ t) :=
  inferInstanceAs (Decidable ((s.sysNs, s.pcrNs) ≤ (t.sysNs, t.pcrNs)))

/-- `clock` of a track, besides its samples. -/
structure Recovered (δ : Type) where
  slope : δ
  intercept : δ
  locked : Bool

/-- `anchors` of a track. -/
structure Anchors where
  lastPcrTicksAnchor : Nat
  lastArrivalNsAnchor : Nat
  lastPidPktsAnchor : Nat
  lastTotalPktsAnchor : Nat
  syncDone : Bool
  deriving DecidableEq

structure PcrTrack (δ : Type) where
  pid : Nat
  programId : Nat
  lastPcrTicks : Nat
  lastUnwrappedPcrNs : Nat
  lastArrivalNs : Nat
  pcrCount : Nat
  clock : Recovered δ
  /-- `clock.samples`, `clock.count` and `clock.head`. -/
  window : RingWindow PcrSample
  pcrJitterMs : δ
  driftPpm : δ
  bitrateBps : Nat
  muxBitrateBps : Nat
  priority1Errors : Nat
  anchors : Anchors
  /-- Does `live` point to the statistics of the handle? -/
  live : Bool
  initialized : Bool

/-- The buckets of `pcr_jitter_hist`. -/
inductive JitterBucket where
  | under500ns | from500ns1us | from1us5us | from5us10us | from10us100us | from100us1ms
  | from1ms10ms | over10ms
  deriving DecidableEq

/-- What tracks write of `tsa_tr101290_stats_t`. -/
structure PcrStats (δ : Type) where
  pcrRepetitionMaxMs : δ
  pcrJitterMaxNs : Nat
  pcrJitterHist : JitterBucket → Nat

/-- The arguments of `tsa_pcr_track_update`. -/
structure PcrInput where
  pcrTicks : Nat
  arrivalNs : Nat
  pidPkts : Nat
  totalPkts : Nat
  useArrivalCheck : Bool
  deriving DecidableEq

variable {δ : Type} [Double δ]

def PcrTrack.zero (pid programId : Nat) : PcrTrack δ where
  pid := pid
  programId := programId
  lastPcrTicks := 0
  lastUnwrappedPcrNs := 0
  lastArrivalNs := 0
  pcrCount := 0
  clock := ⟨Double.lit 0, Double.lit 0, false⟩
  window := ⟨fun _ => ⟨0, 0⟩, 0, 0⟩
  pcrJitterMs := Double.lit 0
  driftPpm := Double.lit 0
  bitrateBps := 0
  muxBitrateBps := 0
  priority1Errors := 0
  anchors := ⟨0, 0, 0, 0, false⟩
  live := false
  initialized := false

/-- `tsa_pcr_track_init`, and `live` as `tsa_create` then sets it. -/
def tsaPcrTrackInit (pid programId : Nat) : PcrTrack δ :=
  { PcrTrack.zero pid programId with live := true }

def tsaPcrTrackReset (t : PcrTrack δ) : PcrTrack δ :=
  { PcrTrack.zero t.pid t.programId with priority1Errors := t.priority1Errors }

def PcrStats.zero : PcrStats δ := ⟨Double.lit 0, 0, fun _ => 0⟩

/-! ## Regression -/

/-- A sample relative to slot 0, as the regression subtracts it. -/
def sinceFirst (w : RingWindow PcrSample) (k : Nat) : PcrSample :=
  ⟨sub64 (w.samples k).sysNs (w.samples 0).sysNs, sub64 (w.samples k).pcrNs (w.samples 0).pcrNs⟩

structure Sums (δ : Type) where
  x : δ
  y : δ
  xx : δ
  xy : δ

def addSample (w : RingWindow PcrSample) (s : Sums δ) (k : Nat) : Sums δ :=
  let x : δ := Double.lit (sinceFirst w k).sysNs / Double.lit 1000000000
  let y : δ := Double.lit (sinceFirst w k).pcrNs / Double.lit 1000000000
  ⟨s.x + x, s.y + y, s.xx + x * x, s.xy + x * y⟩

/-- The outputs of `pcr_track_regress`. -/
structure Fit (δ : Type) where
  slope : δ
  intercept : δ
  maxErrNs : Int

/-- `pcr_track_regress`; `none` for its `-1`. -/
def pcrTrackRegress (w : RingWindow PcrSample) : Option (Fit δ) :=
  if w.count < 10 then none
  else
    let n : δ := Double.lit w.count
    let zero : δ := Double.lit 0
    let s := (List.range w.count).foldl (addSample w) (⟨zero, zero, zero, zero⟩ : Sums δ)
    let den := n * s.xx - s.x * s.x
    if Double.lt (Double.abs den) (Double.lit (1 / 1000000000000)) then none
    else
      let slope := (n * s.xy - s.x * s.y) / den
      let relInterceptS := (s.y - slope * s.x) / n
      let absIntercept := Double.lit (w.samples 0).pcrNs - slope * Double.lit (w.samples 0).sysNs +
        relInterceptS * Double.lit 1000000000
      let maxErr (m : δ) (k : Nat) : δ :=
        let err := Double.abs (Double.lit (w.samples k).pcrNs -
          (slope * Double.lit (w.samples k).sysNs + absIntercept))
        if Double.lt m err then err else m
      some ⟨slope, absIntercept, Double.trunc ((List.range w.count).foldl maxErr zero)⟩

/-! ## Gap analysis -/

def PcrInput.Valid (u : PcrInput) : Prop := u.pcrTicks ≠ invalidPcr
deriving Decidable

def ticksSince (last pcrTicks : Nat) : Nat :=
  if last ≤ pcrTicks then pcrTicks - last else sub64 (pcrTicks + pcrModulo) last

def PcrTrack.deltaTicks (t : PcrTrack δ) (u : PcrInput) : Nat :=
  ticksSince t.lastPcrTicks u.pcrTicks

/-- The time axis, where there is a PCR. -/
def PcrTrack.unwrappedNs (t : PcrTrack δ) (u : PcrInput) : Nat :=
  (t.lastUnwrappedPcrNs + tsaPcrToNs (t.deltaTicks u)) % 2 ^ 64

def PcrTrack.arrivalViolation (t : PcrTrack δ) (u : PcrInput) : Bool :=
  u.useArrivalCheck && decide (pcrArrivalMaxNs < u.arrivalNs - t.lastArrivalNs)

/-- `pcr_gap_violation || arrival_violation`. -/
def PcrTrack.violation (t : PcrTrack δ) (u : PcrInput) : Bool :=
  decide (u.Valid ∧ pcrRepetitionMaxTicks < t.deltaTicks u) || t.arrivalViolation u

def PcrTrack.Jumps (t : PcrTrack δ) (u : PcrInput) : Prop :=
  u.Valid ∧ tsSystemClockHz * 5 < t.deltaTicks u
deriving Decidable

def tsaPcrToNsF (ticks : Nat) : δ :=
  Double.lit ticks * Double.lit 1000000000 / Double.lit tsSystemClockHz

def deltaMs (ticks : Nat) : δ := tsaPcrToNsF ticks / Double.lit 1000000

/-- `pcr_repetition_max_ms` follows. -/
def PcrStats.noteGap (s : PcrStats δ) (ticks : Nat) : PcrStats δ :=
  if Double.lt s.pcrRepetitionMaxMs (deltaMs ticks) then
    { s with pcrRepetitionMaxMs := deltaMs ticks }
  else s

def PcrTrack.start (t : PcrTrack δ) (u : PcrInput) : PcrTrack δ :=
  { t with
    lastPcrTicks := u.pcrTicks
    lastUnwrappedPcrNs := tsaPcrToNs u.pcrTicks
    lastArrivalNs := u.arrivalNs
    pcrCount := 1
    initialized := true
    anchors := ⟨u.pcrTicks, u.arrivalNs, u.pidPkts, u.totalPkts, false⟩ }

/-- The time axis moves on and a violation is counted. -/
def PcrTrack.analyzeGap (t : PcrTrack δ) (u : PcrInput) : PcrTrack δ :=
  let t' := if u.Valid then { t with lastUnwrappedPcrNs := t.unwrappedNs u } else t
  if t.violation u then { t' with priority1Errors := (t'.priority1Errors + 1) % 2 ^ 32 } else t'

/-- The gap analysis where it does not end in a reset: an arrival violation takes the lock away. -/
def PcrTrack.gapAnalyzed (t : PcrTrack δ) (u : PcrInput) : PcrTrack δ :=
  if t.arrivalViolation u then
    { t.analyzeGap u with clock := { (t.analyzeGap u).clock with locked := false } }
  else t.analyzeGap u

/-! ## Clock recovery -/

def jitterBucket (absErrNs : Nat) : JitterBucket :=
  if absErrNs < 500 then .under500ns
  else if absErrNs < 1000 then .from500ns1us
  else if absErrNs < 5000 then .from1us5us
  else if absErrNs < 10000 then .from5us10us
  else if absErrNs < 100000 then .from10us100us
  else if absErrNs < 1000000 then .from100us1ms
  else if absErrNs < 10000000 then .from1ms10ms
  else .over10ms

def PcrStats.noteJitter (s : PcrStats δ) (absErrNs : Nat) : PcrStats δ :=
  let b := jitterBucket absErrNs
  { s with
    pcrJitterMaxNs := if s.pcrJitterMaxNs < absErrNs then absErrNs else s.pcrJitterMaxNs
    pcrJitterHist := Function.update s.pcrJitterHist b ((s.pcrJitterHist b + 1) % 2 ^ 64) }

/-- `x == 0` for a `float`. -/
def isZero (x : δ) : Bool := !Double.lt x (Double.lit 0) && !Double.lt (Double.lit 0) x

/-- What a successful regression leaves in the track. -/
def PcrTrack.adopt (t : PcrTrack δ) (f : Fit δ) : PcrTrack δ :=
  let instJitterMs : δ := Double.toFloat (Double.lit f.maxErrNs / Double.lit 1000000)
  let weigh (w : ℚ) (x : δ) : δ := Double.toFloat (Double.toFloat (Double.lit w) * x)
  { t with
    clock := ⟨f.slope, f.intercept, decide (f.maxErrNs < 1000000)⟩
    driftPpm := (f.slope - Double.lit 1) * Double.lit 1000000
    pcrJitterMs := if isZero t.pcrJitterMs then instJitterMs
      else Double.toFloat (weigh (1 / 10) instJitterMs + weigh (9 / 10) t.pcrJitterMs) }

def PcrTrack.sampled (t : PcrTrack δ) (u : PcrInput) : RingWindow PcrSample :=
  t.window.push pcrTrackWindowSize ⟨u.arrivalNs, t.unwrappedNs u⟩

def PcrTrack.recover (t : PcrTrack δ) (w : RingWindow PcrSample) (s : PcrStats δ) :
    PcrTrack δ × PcrStats δ :=
  let t' := { t with window := w }
  match (pcrTrackRegress w : Option (Fit δ)) with
  | some f => (t'.adopt f, if t.live then s.noteJitter f.maxErrNs.natAbs else s)
  | none => (t', s)

/-! ## Bitrates -/

/-- A bitrate, smoothed; the first one is taken as it is. -/
def smooth (δ : Type) [Double δ] (old inst : Nat) : Nat :=
  if old = 0 then inst
  else (Double.trunc (Double.lit (1 / 10) * Double.lit inst +
    (Double.lit 1 - Double.lit (1 / 10)) * Double.lit old : δ)).toNat % 2 ^ 64

/-- The bitrate of this many packets in this many ticks. -/
def instBitrate (δ : Type) [Double δ] (pkts ticks : Nat) : Nat :=
  (Double.trunc (Double.lit pkts * Double.lit tsPacketBits * Double.lit tsSystemClockHz /
    Double.lit ticks : δ)).toNat % 2 ^ 64

def PcrTrack.settle (t : PcrTrack δ) (u : PcrInput) : PcrTrack δ :=
  let a := t.anchors
  let dt := ticksSince a.lastPcrTicksAnchor u.pcrTicks
  if bitrateSettleIntervalNs ≤ u.arrivalNs - a.lastArrivalNsAnchor ∧ u.Valid ∧ 0 < dt then
    { t with
      bitrateBps := smooth δ t.bitrateBps
        (instBitrate δ (sub64 u.pidPkts a.lastPidPktsAnchor) dt)
      muxBitrateBps := smooth δ t.muxBitrateBps
        (instBitrate δ (sub64 u.totalPkts a.lastTotalPktsAnchor) dt)
      anchors := ⟨u.pcrTicks, u.arrivalNs, u.pidPkts, u.totalPkts, true⟩ }
  else t

/-! ## The update -/

/-- The references for the next observation. -/
def PcrTrack.finish (t : PcrTrack δ) (u : PcrInput) : PcrTrack δ :=
  { t with
    lastPcrTicks := if u.Valid then u.pcrTicks else t.lastPcrTicks
    lastArrivalNs := u.arrivalNs
    pcrCount := (t.pcrCount + 1) % 2 ^ 64 }

def tsaPcrTrackUpdate (t : PcrTrack δ) (s : PcrStats δ) (u : PcrInput) :
    PcrTrack δ × PcrStats δ × Bool :=
  if !t.initialized then
    if ¬ u.Valid then (t, s, false) else (t.start u, s, false)
  else
    let s' := if u.Valid ∧ t.live then s.noteGap (t.deltaTicks u) else s
    if t.violation u ∧ t.Jumps u then (tsaPcrTrackReset (t.analyzeGap u), s', false)
    else
      let t' := t.gapAnalyzed u
      let r := if u.Valid then t'.recover (t.sampled u) s' else (t', s')
      ((r.1.settle u).finish u, r.2, true)

/-! ## What an update does -/

/-- The update runs a regression. -/
def PcrTrack.Regresses (t : PcrTrack δ) (u : PcrInput) : Prop :=
  t.initialized = true ∧ u.Valid ∧ ¬ t.Jumps u ∧ 10 ≤ (t.sampled u).count
deriving Decidable

def gapNoted (t : PcrTrack δ) (s : PcrStats δ) (u : PcrInput) : PcrStats δ :=
  if t.live then s.noteGap (t.deltaTicks u) else s

/-- The statistics after the regression on the new window. -/
def jitterNoted (t : PcrTrack δ) (s : PcrStats δ) (u : PcrInput) : PcrStats δ :=
  match (pcrTrackRegress (t.sampled u) : Option (Fit δ)) with
  | some f => if t.live then s.noteJitter f.maxErrNs.natAbs else s
  | none => s

/-- The counter of violations. -/
def PcrTrack.errorsAfter (t : PcrTrack δ) (u : PcrInput) : Nat :=
  if t.violation u then (t.priority1Errors + 1) % 2 ^ 32 else t.priority1Errors

/-- **What an update does.** -/
inductive UpdateEffect (t : PcrTrack δ) (s : PcrStats δ) (u : PcrInput) :
    PcrTrack δ → PcrStats δ → Prop
  /-- No PCR to start with. -/
  | ignored (hinit : t.initialized = false) (hvalid : ¬ u.Valid) : UpdateEffect t s u t s
  | started (hinit : t.initialized = false) (hvalid : u.Valid) : UpdateEffect t s u (t.start u) s
  | reset (t' : PcrTrack δ) (hinit : t.initialized = true) (hjump : t.Jumps u)
      (hlive : t'.live = false) (hinit' : t'.initialized = false) (hwindow : t'.window.count = 0)
      (hhead : t'.window.head = 0) (herrors : t'.priority1Errors = t.errorsAfter u) :
    UpdateEffect t s u t' (gapNoted t s u)
  /-- No PCR: arrival times only. -/
  | arrived (t' : PcrTrack δ) (hinit : t.initialized = true) (hvalid : ¬ u.Valid)
      (hlive : t'.live = t.live) (hinit' : t'.initialized = true) (hwindow : t'.window = t.window)
      (herrors : t'.priority1Errors = t.errorsAfter u) (hpcr : t'.lastPcrTicks = t.lastPcrTicks)
      (hunwrapped : t'.lastUnwrappedPcrNs = t.lastUnwrappedPcrNs)
      (harrival : t'.lastArrivalNs = u.arrivalNs) :
    UpdateEffect t s u t' s
  | sampled (t' : PcrTrack δ) (hinit : t.initialized = true) (hvalid : u.Valid)
      (hjump : ¬ t.Jumps u) (hlive : t'.live = t.live) (hinit' : t'.initialized = true)
      (hwindow : t'.window = t.sampled u) (herrors : t'.priority1Errors = t.errorsAfter u)
      (hpcr : t'.lastPcrTicks = u.pcrTicks) (hunwrapped : t'.lastUnwrappedPcrNs = t.unwrappedNs u)
      (harrival : t'.lastArrivalNs = u.arrivalNs) :
    UpdateEffect t s u t' (jitterNoted t (gapNoted t s u) u)

/-- Fields that neither clock recovery nor settlement writes. -/
structure SameAxis (t t' : PcrTrack δ) : Prop where
  live : t'.live = t.live
  initialized : t'.initialized = t.initialized
  errors : t'.priority1Errors = t.priority1Errors
  pcr : t'.lastPcrTicks = t.lastPcrTicks
  unwrapped : t'.lastUnwrappedPcrNs = t.lastUnwrappedPcrNs

variable (t : PcrTrack δ)

variable (u : PcrInput)

theorem settle_same : SameAxis t (t.settle u) ∧ (t.settle u).window = t.window := by
  unfold PcrTrack.settle
  simp only
  split
  · exact ⟨⟨rfl, rfl, rfl, rfl, rfl⟩, rfl⟩
  · exact ⟨⟨rfl, rfl, rfl, rfl, rfl⟩, rfl⟩

theorem recover_same (w : RingWindow PcrSample) (s : PcrStats δ) :
    SameAxis t (t.recover w s).1 ∧ (t.recover w s).1.window = w := by
  unfold PcrTrack.recover
  simp only
  split
  · exact ⟨⟨rfl, rfl, rfl, rfl, rfl⟩, rfl⟩
  · exact ⟨⟨rfl, rfl, rfl, rfl, rfl⟩, rfl⟩

omit [Double δ] in
theorem PcrTrack.violation_of_gap {t : PcrTrack δ} {u : PcrInput} (hvalid : u.Valid)
    (hgap : pcrRepetitionMaxTicks < t.deltaTicks u) : t.violation u = true := by
  simp only [PcrTrack.violation, hvalid, hgap, and_self, decide_true, Bool.true_or]

omit [Double δ] in
theorem PcrTrack.Jumps.violation {t : PcrTrack δ} {u : PcrInput} (h : t.Jumps u) :
    t.violation u = true :=
  PcrTrack.violation_of_gap h.1 (lt_trans (by decide) h.2)

omit [Double δ] in
theorem analyzeGap_errors : (t.analyzeGap u).priority1Errors = t.errorsAfter u := by
  unfold PcrTrack.analyzeGap PcrTrack.errorsAfter
  simp only
  split <;> split <;> rfl

omit [Double δ] in
theorem analyzeGap_unwrapped :
    (t.analyzeGap u).lastUnwrappedPcrNs =
      if u.Valid then t.unwrappedNs u else t.lastUnwrappedPcrNs := by
  unfold PcrTrack.analyzeGap
  simp only
  split <;> split <;> rfl

omit [Double δ] in
theorem analyzeGap_frame :
    (t.analyzeGap u).live = t.live ∧ (t.analyzeGap u).initialized = t.initialized ∧
      (t.analyzeGap u).lastPcrTicks = t.lastPcrTicks ∧ (t.analyzeGap u).window = t.window := by
  unfold PcrTrack.analyzeGap
  simp only
  split <;> split <;> exact ⟨rfl, rfl, rfl, rfl⟩

omit [Double δ] in
theorem gapAnalyzed_same :
    SameAxis (t.analyzeGap u) (t.gapAnalyzed u) ∧ (t.gapAnalyzed u).window = t.window := by
  obtain ⟨-, -, -, hwindow⟩ := analyzeGap_frame t u
  unfold PcrTrack.gapAnalyzed
  split
  · exact ⟨⟨rfl, rfl, rfl, rfl, rfl⟩, hwindow⟩
  · exact ⟨⟨rfl, rfl, rfl, rfl, rfl⟩, hwindow⟩

theorem recover_stats (t' : PcrTrack δ) (s : PcrStats δ) (u : PcrInput) (h : t'.live = t.live) :
    (t'.recover (t.sampled u) s).2 = jitterNoted t s u := by
  unfold PcrTrack.recover jitterNoted
  rw [h]
  cases (pcrTrackRegress (t.sampled u) : Option (Fit δ)) <;> rfl

theorem update_of_start {t : PcrTrack δ} {u : PcrInput} (hinit : t.initialized = false)
    (hvalid : u.Valid) (s : PcrStats δ) : tsaPcrTrackUpdate t s u = (t.start u, s, false) := by
  simp only [tsaPcrTrackUpdate, hinit, Bool.not_false, if_true, hvalid, not_true, if_false]

theorem update_of_jump {t : PcrTrack δ} {u : PcrInput} (hinit : t.initialized = true)
    (hjump : t.Jumps u) (s : PcrStats δ) :
    tsaPcrTrackUpdate t s u = (tsaPcrTrackReset (t.analyzeGap u), gapNoted t s u, false) := by
  simp only [tsaPcrTrackUpdate, hinit, hjump, hjump.1, hjump.violation, Bool.not_true,
    Bool.false_eq_true, if_false, and_self, if_true, true_and, gapNoted]

theorem update_effect (s : PcrStats δ) (u : PcrInput) :
    UpdateEffect t s u (tsaPcrTrackUpdate t s u).1 (tsaPcrTrackUpdate t s u).2.1 := by
  obtain ⟨hlive, hinit', hpcr, -⟩ := analyzeGap_frame t u
  obtain ⟨hsame, hgwindow⟩ := gapAnalyzed_same t u
  cases hinit : t.initialized with
  | false =>
    by_cases hvalid : u.Valid
    · rw [update_of_start hinit hvalid]
      exact .started hinit hvalid
    · simp only [tsaPcrTrackUpdate, hinit, hvalid]
      exact .ignored hinit hvalid
  | true =>
    by_cases hjump : t.Jumps u
    · rw [update_of_jump hinit hjump]
      exact .reset _ hinit hjump rfl rfl rfl rfl (analyzeGap_errors t u)
    · by_cases hvalid : u.Valid
      · have heq : tsaPcrTrackUpdate t s u =
            (((((t.gapAnalyzed u).recover (t.sampled u) (gapNoted t s u)).1.settle u).finish u),
              ((t.gapAnalyzed u).recover (t.sampled u) (gapNoted t s u)).2, true) := by
          simp only [tsaPcrTrackUpdate, hinit, hjump, hvalid, Bool.not_true, Bool.false_eq_true,
            and_false, if_false, if_true, true_and, gapNoted]
        rw [heq, recover_stats t _ _ u (hsame.live.trans hlive)]
        obtain ⟨hrec, hrwindow⟩ := recover_same (t.gapAnalyzed u) (t.sampled u) (gapNoted t s u)
        obtain ⟨hset, hswindow⟩ :=
          settle_same ((t.gapAnalyzed u).recover (t.sampled u) (gapNoted t s u)).1 u
        refine .sampled _ hinit hvalid hjump ?_ ?_ ?_ ?_ ?_ ?_ rfl
        · exact hset.live.trans (hrec.live.trans (hsame.live.trans hlive))
        · exact hset.initialized.trans
            (hrec.initialized.trans (hsame.initialized.trans (hinit'.trans hinit)))
        · exact hswindow.trans hrwindow
        · exact hset.errors.trans
            (hrec.errors.trans (hsame.errors.trans (analyzeGap_errors t u)))
        · exact if_pos hvalid
        · exact hset.unwrapped.trans (hrec.unwrapped.trans (hsame.unwrapped.trans
            ((analyzeGap_unwrapped t u).trans (if_pos hvalid))))
      · have heq : tsaPcrTrackUpdate t s u =
            ((((t.gapAnalyzed u).settle u).finish u), s, true) := by
          simp only [tsaPcrTrackUpdate, hinit, hjump, hvalid, Bool.not_true, Bool.false_eq_true,
            and_false, false_and, if_false]
        rw [heq]
        obtain ⟨hset, hswindow⟩ := settle_same (t.gapAnalyzed u) u
        refine .arrived _ hinit hvalid ?_ ?_ ?_ ?_ ?_ ?_ rfl
        · exact hset.live.trans (hsame.live.trans hlive)
        · exact hset.initialized.trans (hsame.initialized.trans (hinit'.trans hinit))
        · exact hswindow.trans hgwindow
        · exact hset.errors.trans (hsame.errors.trans (analyzeGap_errors t u))
        · exact (if_neg hvalid).trans (hset.pcr.trans (hsame.pcr.trans hpcr))
        · exact hset.unwrapped.trans (hsame.unwrapped.trans
            ((analyzeGap_unwrapped t u).trans (if_neg hvalid)))

/-- A track and the statistics it reports to, after an update. -/
def observe (x : PcrTrack δ × PcrStats δ) (u : PcrInput) : PcrTrack δ × PcrStats δ :=
  ((tsaPcrTrackUpdate x.1 x.2 u).1, (tsaPcrTrackUpdate x.1 x.2 u).2.1)

end TsAnalyzer.Clock
