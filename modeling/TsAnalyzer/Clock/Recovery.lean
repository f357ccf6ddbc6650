/-
  Clock recovery in the packet path: the PCR plugin (`src/tsa_engine_pcr.c`) and the system time
  clock it drives (`src/tsa.c`).

  1. **Program** — every packet with a PCR updates the track of its PID; the track of the MASTER
     PID drives the clock of the handle.
  2. **Packet path** — `Parts.withRecovery` puts this in the place of what `Monitor.Handle` leaves
     open there; the parts that stay open may read all of it and write none of it.
-/
import TsAnalyzer.Clock.Statistics
import TsAnalyzer.Monitor.Handle

namespace TsAnalyzer.Clock

open Lib Alarm Essence Packet Pipeline
open Monitor

variable {δ ρ : Type} [Double δ]

/-! ## Program -/

inductive OpMode where
  | live | replay | forensic | certification
  deriving DecidableEq

/-- What clock recovery reads of `tsa_config_t`. -/
structure RecoveryConfig where
  opMode : OpMode
  pcrPidOverride : Int
  forcedCbrBitrate : Nat
  deriving DecidableEq

def defaultReplayBitrate : Nat := 10000000

def noMasterPid : Nat := 0x1FFF

/-- The fields of the handle that clock recovery works on. -/
structure Recovery (δ : Type) where
  engine : PcrEngine δ
  masterPcrPid : Nat
  lastPcrTicks : Nat
  stcLocked : Bool
  stcWallDriftPpm : δ
  stcSlopeQ64 : Int
  stcInterceptQ64 : Int
  /-- `live->pcr_repetition_error.count`. -/
  pcrRepetitionErrorCount : Nat

/-- As `tsa_create` leaves them. -/
def Recovery.fresh : Recovery δ where
  engine := PcrEngine.fresh
  masterPcrPid := noMasterPid
  lastPcrTicks := invalidPcr
  stcLocked := false
  stcWallDriftPpm := Double.lit 0
  stcSlopeQ64 := 2 ^ 64
  stcInterceptQ64 := 0
  pcrRepetitionErrorCount := 0

/-- `TO_Q64_64`. -/
def toQ64_64 (x : δ) : Int := Double.trunc (x * Double.lit (2 ^ 64))

/-- The handle follows the track of the PID, if that is the master PID or there is none yet. -/
def Recovery.follow (r : Recovery δ) (pid pcrTicks : Nat) : Recovery δ :=
  let t := r.engine.tracks pid
  let leads : Bool := r.masterPcrPid = noMasterPid ∨ r.masterPcrPid = pid
  { r with
    masterPcrPid := if leads then pid else r.masterPcrPid
    lastPcrTicks := if leads then pcrTicks else r.lastPcrTicks
    stcLocked := if leads then t.clock.locked else r.stcLocked
    stcWallDriftPpm := if leads then t.driftPpm else r.stcWallDriftPpm
    -- without a lock, the model of the last one stays
    stcSlopeQ64 := if leads && t.clock.locked then toQ64_64 t.clock.slope else r.stcSlopeQ64
    stcInterceptQ64 :=
      if leads && t.clock.locked then toQ64_64 t.clock.intercept else r.stcInterceptQ64 }

/-- The arguments of an update by the plugin. -/
def pcrInput (cfg : RecoveryConfig) (pcrTicks now pidPkts totalPkts : Nat) : PcrInput :=
  ⟨pcrTicks, now, pidPkts, totalPkts, decide (cfg.opMode = .live)⟩

/-- The configuration may name the master PID. -/
def Recovery.override (cfg : RecoveryConfig) (r : Recovery δ) : Recovery δ :=
  { r with
    masterPcrPid := if r.masterPcrPid = noMasterPid ∧ 0 < cfg.pcrPidOverride then
      cfg.pcrPidOverride.toNat % 2 ^ 16 else r.masterPcrPid }

/-- `pcr_on_ts`; `now` is `h->current_ns`. -/
def Recovery.onTs (cfg : RecoveryConfig) (r : Recovery δ) (res : DecodeResult) (p : Nat → UInt8)
    (now pidPkts totalPkts : Nat) : Recovery δ :=
  let r := r.override cfg
  match pcrOnTs p res with
  | none => r
  | some pcrTicks =>
    let u := pcrInput cfg pcrTicks now pidPkts totalPkts
    { r with engine := r.engine.update res.pid u }.follow res.pid pcrTicks

/-- The step of `stc_ns` for a packet in REPLAY mode. -/
def Recovery.replayStep (cfg : RecoveryConfig) (r : Recovery δ) : Nat :=
  let step := (Double.trunc (Double.lit (188 * 8) *
    (Double.lit r.stcSlopeQ64 / Double.lit (2 ^ 64)) : δ)).toNat
  if step < 10000 ∨ 1000000 < step then
    188 * 8 * 1000000000 /
      (if cfg.forcedCbrBitrate = 0 then defaultReplayBitrate else cfg.forcedCbrBitrate)
  else step

/-- The new `stc_ns`, from the old one and the arrival time. -/
def Recovery.stcNs (cfg : RecoveryConfig) (r : Recovery δ) (stc n : Nat) : Nat :=
  if cfg.opMode = .replay then (stc + r.replayStep cfg) % 2 ^ 64
  else if r.stcLocked then (((r.stcInterceptQ64 + n * r.stcSlopeQ64) >>> 64) % 2 ^ 64).toNat
  else n

/-- The errors of the first PIDs, of those tracks that are initialised. -/
def PcrEngine.repetitionErrors (e : PcrEngine δ) (pidMax : Nat) : Nat :=
  ∑ pid ∈ Finset.range pidMax,
    if (e.tracks pid).initialized then (e.tracks pid).priority1Errors else 0

def Recovery.exported (r : Recovery δ) (count : Nat) : Recovery δ :=
  { r with pcrRepetitionErrorCount := count }

omit [Double δ] in
theorem exported_eq (r : Recovery δ) (count : Nat) :
    (r.exported count).pcrRepetitionErrorCount = count ∧ (r.exported count).engine = r.engine :=
  ⟨rfl, rfl⟩

/-- `tsa_eval_tr101290_alarms` writes their sum. -/
def Recovery.commit (r : Recovery δ) : Recovery δ :=
  r.exported (r.engine.repetitionErrors tsPidMax)

omit [Double δ] in
theorem commit_count (r : Recovery δ) :
    r.commit.pcrRepetitionErrorCount = r.engine.repetitionErrors tsPidMax :=
  (exported_eq r _).1

omit [Double δ] in
theorem commit_engine (r : Recovery δ) : r.commit.engine = r.engine := (exported_eq r _).2

/-! ## Packet path -/

/-- Clock recovery in the place of what is open. -/
def withRecovery (cfg : RecoveryConfig) (P : Parts (Recovery δ × ρ)) : Parts (Recovery δ × ρ) where
  startEngine x n := (x.1, (P.startEngine x n).2)
  stcNs x := x.1.stcNs cfg
  stack := P.stack
  pidDropped := P.pidDropped
  histAddPacket x pid stc := (x.1, (P.histAddPacket x pid stc).2)
  pcrOnTs x res p n pidPkts totalPkts :=
    (x.1.onTs cfg res p n pidPkts totalPkts, (P.pcrOnTs x res p n pidPkts totalPkts).2)
  bitrates := P.bitrates
  audioAudit x pid bytes := (x.1, (P.audioAudit x pid bytes).2)
  handleEsPayload x a pid es bytes :=
    let e := P.handleEsPayload x a pid es bytes
    { e with rest := (x.1, e.rest.2) }
  recordFrame x pid type len := (x.1, (P.recordFrame x pid type len).2)
  recordPts x pid pts stc := (x.1, (P.recordPts x pid pts stc).2)
  recordEntropy x pid bytes :=
    let e := P.recordEntropy x pid bytes
    ((x.1, e.1.2), e.2)
  luaHandlers x notices := (x.1, (P.luaHandlers x notices).2)
  calcStreamBitrate x n := (x.1.commit, (P.calcStreamBitrate x n).2)
  stcLocked x := x.1.stcLocked
  hasCea708 := P.hasCea708
  lastCcSeenNs := P.lastCcSeenNs

def idleParts (δ : Type) : Parts (Recovery δ × Unit) where
  startEngine x _ := x
  stcNs _ _ n := n
  stack _ := ⟨0, false, false, 0, 0, 0⟩
  pidDropped _ _ := false
  histAddPacket x _ _ := x
  pcrOnTs x _ _ _ _ _ := x
  bitrates _ _ := ⟨0, 0, 0⟩
  audioAudit x _ _ := x
  handleEsPayload x _ _ _ _ := ⟨x, [], .none, none⟩
  recordFrame x _ _ _ := x
  recordPts x _ _ _ := x
  recordEntropy x _ _ := (x, none)
  luaHandlers x _ := x
  calcStreamBitrate x _ := x
  stcLocked _ := false
  hasCea708 _ _ := false
  lastCcSeenNs _ _ := 0

/-- The clock recovery of an analyzer. -/
def recoveryOf (h : MonitorHandle (Recovery δ × ρ)) : Recovery δ := h.rest.rest.1

theorem commit_recovery (cfg : RecoveryConfig) (P : Parts (Recovery δ × ρ))
    (h : MonitorHandle (Recovery δ × ρ)) (n : Nat) :
    recoveryOf (inputStep (withRecovery cfg P) h (.commitSnapshot n)) = (recoveryOf h).commit := rfl

theorem withRecovery_tame (cfg : RecoveryConfig) (P : Parts (Recovery δ × ρ)) :
    (withRecovery cfg P).engines.Tame (fun r => r.rest.1) essenceAlerts where
  tstd := (engines_tame (withRecovery cfg P)).tstd
  startEngine _ _ := rfl
  audioAudit _ _ _ := rfl
  handleEsPayload r a pid es bytes :=
    ⟨rfl, ((engines_tame (withRecovery cfg P)).handleEsPayload r a pid es bytes).2⟩
  recordFrame _ _ _ _ := rfl
  recordPts _ _ _ _ := rfl
  recordEntropy r a pid bytes :=
    ⟨rfl, ((engines_tame (withRecovery cfg P)).recordEntropy r a pid bytes).2⟩
  settle _ _ := ⟨rfl, .refl _⟩

/-- **What a packet does to the clock recovery.** -/
theorem packet_recovery (cfg : RecoveryConfig) (P : Parts (Recovery δ × ρ))
    (h : MonitorHandle (Recovery δ × ρ)) (m : Memory) (pkt : PacketPtr) (n : Nat) :
    (heard (withRecovery cfg P) h (m.byte pkt) n = none ∧
      recoveryOf (inputStep (withRecovery cfg P) h (.packet m pkt n)) = recoveryOf h) ∨
    ∃ res pidPkts totalPkts, heard (withRecovery cfg P) h (m.byte pkt) n = some res ∧
      res.Describes (m.byte pkt) ∧
      recoveryOf (inputStep (withRecovery cfg P) h (.packet m pkt n)) =
        (recoveryOf h).onTs cfg res (m.byte pkt) n pidPkts totalPkts := by
  have hpass := tsaProcessPacket_passage (withRecovery_tame cfg P) h m pkt n
  unfold recoveryOf
  rw [inputStep]
  generalize (tsaProcessPacket (withRecovery cfg P).engines h m pkt n).handle = h' at hpass ⊢
  generalize m.byte pkt = p at hpass ⊢
  cases hpass with
  | noSync hsync hin =>
    refine .inl ⟨by simp only [heard, hin], ?_⟩
    rw [← (arrive_calm (withRecovery_tame cfg P) h n).watch]
    unfold syncError
    simp only
    split
    · rfl
    · rfl
  | filtered _ res hsync hin hcalm => exact .inl ⟨by simp only [heard, hin], hcalm.watch⟩
  | accepted h1 h2 _ res hsync hin hres hbefore hplugins hafter =>
    have hsame : h1.rest.rest.1 = h.rest.rest.1 := hbefore.watch
    refine .inr ⟨res, h1.pidPacketCount res.pid, h1.totalTsPackets, by simp only [heard, hin], hres,
      ?_⟩
    rw [hafter.watch, hplugins, ← hsame]
    rfl

end TsAnalyzer.Clock
