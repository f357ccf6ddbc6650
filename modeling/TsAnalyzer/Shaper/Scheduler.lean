/-
  The scheduler of the shaper: `tss_pick_es_pid` (`tss_scheduler.c`) with its pacing controller, and
  the token refill `tss_refill_tokens_flywheel` (`tss_pacing.c`).

  `tss_pick_es_pid` walks the PIDs of all programs and changes each PID it passes; the walk is a
  fold that threads the PID table and the best candidate.  The program it also returns is used by
  the `ACT_PAYLOAD_PCR` branch of the step only, which no path selects: it is left out.
-/
import TsAnalyzer.Shaper.Ingress

namespace TsAnalyzer.Shaper

variable {μ : Type}

def tssClip64 (a amin amax : Int) : Int := if a < amin then amin else if a > amax then amax else a

/-- The delay of a PID's FIFO at a bit rate, in ms. -/
def queueDelayMs (p : PidState) (bitrate : Int) : Int :=
  ((p.tsFifo.size : Int) * 8 * 1000).tdiv bitrate

def hasPacket (p : PidState) : Bool := p.tsFifo.size ≥ tsPacketSize

def isAv (p : PidState) : Bool := p.type = .video ∨ p.type = .audio

/-! ## The pacing controller -/

/-- `delay_ratio`: the FIFO's delay as a fraction of the mux delay. -/
def delayRatio (cfg : Config) (p : PidState) : Int :=
  if p.bitrateBps > 0 ∧ (cfg.muxDelay27m * precScale).tdiv 27000000 > 0 then
    (queueDelayMs p p.bitrateBps * precScale).tdiv (cfg.muxDelay27m.tdiv 27000)
  else 0

/-- `gain_scaled` and `jitter_limit_bps`, by zone. -/
def zoneOf (p : PidState) (ratio : Int) : Int × Int :=
  if 250 ≤ ratio ∧ ratio ≤ 750 then (2, 22000)
  else if 100 ≤ ratio ∧ ratio ≤ 900 then (4, 32000)
  else
    let gain :=
      if 400 ≤ ratio ∧ ratio ≤ 750 then 4
      else if 200 ≤ ratio ∧ ratio < 400 then 4
      else if 100 ≤ ratio ∧ ratio < 200 then 8
      else 24
    (gain, min 64000 (p.baseRefillRateBps.tdiv 20))

/-- `gain_scaled` after the damping of low bit rates. -/
def gainOf (p : PidState) (ratio : Int) : Int :=
  if p.baseRefillRateBps < 1000000 then (zoneOf p ratio).1.tdiv 2 else (zoneOf p ratio).1

def rangeLimit (p : PidState) (ratio : Int) : Int :=
  ((zoneOf p ratio).2 * precScale).tdiv
    (if p.baseRefillRateBps > 0 then p.baseRefillRateBps else 1000000)

/-- `max_pacing_limit`: lifted in the danger zones. -/
def maxPacing (p : PidState) (ratio : Int) : Int :=
  if ratio < 100 ∨ ratio > 900 then
    if p.baseRefillRateBps < 1000000 then precScale + 50 else precScale + 150
  else precScale + rangeLimit p ratio

def minPacing (p : PidState) (ratio : Int) : Int := precScale - rangeLimit p ratio

/-- The controller's integral and `target_pacing`, before the limits. -/
def integrate (p : PidState) (ratio : Int) : Int × Int :=
  let error := ratio - 600
  let gain := gainOf p ratio
  let decayed := (p.pacingTokens * 999999 + precScale).tdiv 1000000
  let saturated :=
    (error > 0 ∧ p.pacingTokens ≥ maxPacing p ratio) ∨
      (error < 0 ∧ p.pacingTokens ≤ minPacing p ratio)
  if ffabs error < 50 then (0, decayed)
  else if ffabs (gain * error) ≥ precScale then
    let integral := if saturated then 0 else p.piIntegral + gain * error
    (integral.tmod precScale, p.pacingTokens + integral.tdiv precScale)
  else (p.piIntegral, decayed)

/-- One round of the controller. -/
def pace (p : PidState) (ratio : Int) : PidState :=
  let r := integrate p ratio
  let target := if p.telAvgCount < 10 then tssClip64 r.2 (precScale - 20) (precScale + 20) else r.2
  let step := max (p.bitrateBps.tdiv 200000) 10
  let target := if target > p.pacingTokens + step then p.pacingTokens + step else target
  let target := if target < p.pacingTokens - step then p.pacingTokens - step else target
  let target := if target < minPacing p ratio then minPacing p ratio else target
  let target := if target > maxPacing p ratio then maxPacing p ratio else target
  { p with piIntegral := r.1, pacingTokens := target }

/-! ## `tss_pick_es_pid` -/

/-- `0x7FFFFFFFFFFFFFFF`. -/
def farDeadline : Int := 2 ^ 63 - 1

/-- The best candidate so far. -/
structure Best where
  pid : Option Nat
  deadline : Int
  fullness : Int
  urgent : Bool

def Best.none : Best := ⟨Option.none, farDeadline, -1, false⟩

/-- A candidate's deadline and urgency. -/
structure Candidate where
  deadline : Int
  urgent : Bool

/-- The deadline of a PID, from its next access unit or a relaxed one. -/
def deadlineOf (c : Core μ) (p : PidState) (ratio : Int) : PidState × Candidate :=
  let p := { p with isUrgent := false }
  match p.auEvents with
  | some (au :: _) =>
    let slack := au.dts - c.clock.vStc
    let pressed : Bool := slack < sysClockFreq.tdiv 200 ∨ ratio > 1
    let urgent : Bool :=
      if p.type = .audio ∨ p.type = .pcr then
        ¬ slack > c.cfg.muxDelay27m + sysClockFreq.tdiv 5 ∧ pressed
      else pressed
    ({ p with telSecSlackMin27m := min slack p.telSecSlackMin27m, isUrgent := urgent },
      ⟨au.dts, urgent⟩)
  | _ => (p, ⟨c.clock.vStc + c.cfg.muxDelay27m, false⟩)

/-- The selection rule at equal urgency: earlier deadline, then fuller buffer, then the PID that is
    already bursting.  The deadline of audio and clock PIDs is pulled forward. -/
def earlier (c : Core μ) (i : Nat) (p : PidState) (d : Candidate) (best : Best) : Bool × Int :=
  let diff := if best.deadline = farDeadline then 0 else d.deadline - best.deadline
  let deadline :=
    if (p.type = .audio ∨ p.type = .pcr) ∧ p.telSecSlackMin27m < sysClockFreq.tdiv 100 then
      d.deadline - sysClockFreq.tdiv 50
    else d.deadline
  let better : Bool :=
    if deadline < best.deadline - sysClockFreq.tdiv 1000 then true
    else if ffabs diff ≤ sysClockFreq.tdiv 1000 then
      p.continuousFullnessBits > best.fullness ∨
        (p.continuousFullnessBits = best.fullness ∧ c.lastPid = some i ∧ p.burstCount < 7)
    else false
  (better, deadline)

/-- The hierarchical selection: the candidate against the best so far. -/
def challenge (c : Core μ) (bestType : Option PidType) (i : Nat) (p : PidState) (d : Candidate)
    (best : Best) : Best :=
  let r : Bool × Int :=
    if p.type = .psi ∧ c.psiConsecutiveCount < 2 ∧ bestType ≠ some .psi then (true, d.deadline)
    else if bestType = some .psi ∧ p.type ≠ .psi then (c.psiConsecutiveCount ≥ 2, d.deadline)
    else if d.urgent ∧ ¬ best.urgent then (true, d.deadline)
    else if d.urgent = best.urgent then earlier c i p d best
    else (false, d.deadline)
  if r.1 then ⟨some i, r.2, p.continuousFullnessBits, d.urgent⟩ else best

/-- The controller runs for audio and video PIDs. -/
def pacePid (cfg : Config) (p : PidState) : PidState × Int :=
  if isAv p then (pace p (delayRatio cfg p), delayRatio cfg p) else (p, 0)

/-- Underflow: back to the baseline pace, against bursts after a gap. -/
def resetPace (p : PidState) : PidState :=
  if isAv p then { p with piIntegral := 0, pacingTokens := precScale } else p

def drainPace (inDrain : Bool) (p : PidState) : PidState :=
  if ¬ p.isPanicMode ∧ inDrain then { p with pacingTokens := precScale } else p

/-- One PID of the walk: the gates in order, and the selection. -/
def considerPid (c : Core μ) (w : (Nat → PidState) × Best) (i : Nat) : PidState × Best :=
  if ¬ hasPacket (w.1 i) then (resetPace (w.1 i), w.2)
  else
    let (p, ratio) := pacePid c.cfg (w.1 i)
    if p.tbFullnessBits + tsPacketBits > p.tbSizeBits then (p, w.2)
    else
      let (p, d) := deadlineOf c p ratio
      let p := drainPace c.inDrain p
      if ¬ p.isPanicMode ∧ p.tokensBits < tsPacketBits then (p, w.2)
      else (p, challenge c (w.2.pid.map fun b => (w.1 b).type) i p d w.2)

def pickStep (c : Core μ) (w : (Nat → PidState) × Best) (i : Nat) : (Nat → PidState) × Best :=
  (updPid w.1 i fun _ => (considerPid c w i).1, (considerPid c w i).2)

/-- The PIDs of all programs, in the order of the walk. -/
def programPids (c : Core μ) : List Nat :=
  (List.range c.layout.nbPrograms).flatMap fun g => (c.programs g).pids

/-- `tss_pick_es_pid`: the PID table after the walk, and the PID picked. -/
def tssPickEsPid (c : Core μ) : (Nat → PidState) × Option Nat :=
  let w := (programPids c).foldl (pickStep c) (c.pids, Best.none)
  (w.1, w.2.pid)

/-! ## `tss_refill_tokens_flywheel` -/

def trackRefillRate (p : PidState) : Int :=
  let anchor :=
    if p.telInputEmaBps > 0 then p.telInputEmaBps else (p.bitrateBps * 1005).tdiv 1000
  let multiplier := if p.pacingTokens < 100 then precScale else p.pacingTokens
  let rawTarget := (anchor * multiplier).tdiv precScale
  let rate := if p.effectiveRefillRateBps = 0 then anchor else p.effectiveRefillRateBps
  let maxSlew := anchor.tdiv 200
  let slewedTarget := rate + tssClip64 (rawTarget - rate) (-maxSlew) maxSlew
  tssClip64 ((rate * 15 + slewedTarget).tdiv 16) ((p.baseRefillRateBps * 80).tdiv 100)
    ((p.baseRefillRateBps * 120).tdiv 100)

/-- The refill of one PID over `delta` ticks. -/
def refillPid (delta : Int) (p : PidState) : PidState :=
  let tracking : Bool := p.type = .video ∧ p.bitrateBps > 0
  let effective := if tracking then trackRefillRate p else p.baseRefillRateBps
  let workBits := delta * effective + p.tokenRemainder
  let tokens := min (p.tokensBits + workBits.tdiv sysClockFreq) p.bucketSizeBits
  { p with
    effectiveRefillRateBps := if tracking then effective else p.effectiveRefillRateBps
    tokenRemainder := workBits.tmod sysClockFreq
    tokensBits := max tokens (-(10 * tsPacketBits)) }

def tssRefillTokensFlywheel (c : Core μ) : Core μ :=
  let delta := c.clock.physicalStc - c.clock.lastRefillPhysicalStc
  let clock := { c.clock with lastRefillPhysicalStc := c.clock.physicalStc }
  if c.clock.lastRefillPhysicalStc = noptsValue ∨ delta < 0 then { c with clock }
  else if delta > 0 then
    { c with clock, pids := mapPids c.layout.nbAllPids c.pids (refillPid delta) }
  else c

end TsAnalyzer.Shaper
