/-
  The state of the traffic shaper (`src/libtsshaper/src/core/tss_internal.h`), `tsshaper_create` and
  `tsshaper_add_pid`.

  * `Timeline` — what is measured on the INPUT's DTS axis; only the input path uses it;
  * `Clock` — the output's clocks; `Core` — everything but the timeline.

  `int64_t` is `Int`: signed overflow is undefined in C.  A PID is named by its index in `all_pids`,
  a program by its index in `programs`.  What the muxer that embeds the shaper fills in
  (`stream_index_to_pid`, the programs, the table PIDs and periods) is ARBITRARY data here.
-/
import TsAnalyzer.Shaper.Fifo

namespace TsAnalyzer.Shaper

/-! ## Constants -/

def noptsValue : Int := -2 ^ 63

def sysClockFreq : Int := 27000000

def tsPacketSize : Nat := 188

def tsPacketBits : Int := 1504

/-- `TSS_TIMELINE_MODULO`: 33 bits of 90 kHz, in 27 MHz ticks. -/
def timelineModulo : Int := 2 ^ 33 * 300

def maxDriveSteps : Nat := 100000

def reanchorTokenMs : Int := 50

def precScale : Int := 1000

/-- `TSS_LATE_THRESHOLD` and `TSS_LATE_MARGIN`. -/
def lateThreshold : Int := sysClockFreq.tdiv 2

def lateMargin : Int := sysClockFreq.tdiv 10

/-! ## PIDs and programs -/

inductive PidType where
  | video | audio | psi | data | pcr
  deriving DecidableEq

inductive TssState where
  | normal | softDiscontinuity | confirming | hardDiscontinuity | recovery | waitIdr
  deriving DecidableEq

/-- `tss_access_unit_t`, without the key flag, which nothing reads. -/
structure AccessUnit where
  dts : Int
  sizeBits : Int

/-- `tss_pid_state_t`.  Fields that are only logged, or never read, are left out. -/
structure PidState where
  pid : Nat
  type : PidType
  tsFifo : TssFifo
  fifoCapacity : Int
  vbvSizeBits : Int
  -- token bucket
  tokensBits : Int
  bucketSizeBits : Int
  baseRefillRateBps : Int
  effectiveRefillRateBps : Int
  tokenRemainder : Int
  -- decoding model
  bitrateBps : Int
  continuousFullnessBits : Int
  tbFullnessBits : Int
  tbSizeBits : Int
  rxRateBps : Int
  tbLeakRemainder : Int
  bufferLevelBits : Int
  /-- The access units of `au_events`; `none` is the NULL FIFO of a PID that is not audio or
  video. -/
  auEvents : Option (List AccessUnit)
  cc : UInt8
  burstCount : Int
  needsDiscontinuity : Bool
  needResync : Bool
  isCurrentAuKey : Bool
  -- pacing controller
  pacingTokens : Int
  piIntegral : Int
  isPanicMode : Bool
  isUrgent : Bool
  waitIdrStartStc : Int
  -- the counters that feed the refill rate
  telAvgCount : Int
  telInputEmaBps : Int
  rxBytesTotal : Int
  fifoAcceptBytes : Int
  muxOutputBytes : Int
  dropBytesTotal : Int
  windowStartAcceptBytes : Int
  secSumWindowInBps : Int
  secNumWindows : Int
  lastDisplayInBps : Int
  last1sAcceptBytes : Int
  telSecSlackMin27m : Int
  -- jump detection
  streamOffset : Int
  avgFrameDuration : Int
  state : TssState
  confirmStreak : Int
  candidateJump : Int
  confirmStartPhysicalStc : Int

/-- `tss_program_t`. -/
structure Program where
  pcrPid : Nat
  pcrPidState : Nat
  pcrPacketPeriod : Int
  nextPcrPacket : Int
  lastPcrVal : Int
  pids : List Nat
  pcrCount : Int
  pcrWindowStartPcr : Int

/-! ## The shaper -/

/-- `tsshaper_config_t`, without the callbacks. -/
structure Config where
  muxRate : Nat
  pcrPeriodMs : Nat
  muxDelayMs : Nat
  pcrWindowSize : Nat
  nbStreams : Nat

namespace Config

/-- Bits of a packet times the clock: the numerator of `ticks_per_packet` and `rem_per_packet`. -/
def packetTicks : Int := 8 * tsPacketSize * sysClockFreq

/-- `ctx->ticks_per_packet`; this and the next fields are set once, by `tsshaper_create`. -/
def ticksPerPacket (cfg : Config) : Int := packetTicks.tdiv cfg.muxRate

def remPerPacket (cfg : Config) : Int := packetTicks.tmod cfg.muxRate

def delayMs (cfg : Config) : Int := if cfg.muxDelayMs > 0 then cfg.muxDelayMs else 700

def muxDelay27m (cfg : Config) : Int := cfg.delayMs * 27000

def maxFifoSize (cfg : Config) : Int :=
  min (max ((cfg.muxRate * cfg.delayMs * 3).tdiv 8000) (4 * 1024 * 1024)) (10 * 1024 * 1024)

end Config

/-- Which PIDs and programs there are; nothing here changes after the set-up.  A stream's PID is
    one of `all_pids`: `tsshaper_add_pid` is the only source of PIDs. -/
structure Layout where
  nbAllPids : Nat
  nbPrograms : Nat
  pidMap : Nat → Option Nat
  streamIndexToPid : Nat → Option Nat
  patPidState : Option Nat
  sdtPidState : Option Nat
  patPeriod : Int
  sdtPeriod : Int
  streamIndexToPid_lt : ∀ n i, streamIndexToPid n = some i → i < nbAllPids

/-- The output's clocks: the exact fractional one (`stc`, with `v_stc` its integral part), the
    physical one, and what is counted and paced by them. -/
structure Clock where
  vStc : Int
  physicalStc : Int
  stcBase : Int
  stcRem : Int
  stcOffset : Int
  nextSlotStc : Int
  lastRefillPhysicalStc : Int
  maxDtsSeen : Int
  packetCount : Int

structure PcrSent where
  program : Nat
  value : Int
  /-- The discontinuity_indicator of its packet. -/
  discontinuity : Bool
  deriving DecidableEq

/-- A packet handed to `write_cb`, with the slot (`packet_count`) it was sent in. -/
structure Emitted where
  slot : Int
  pkt : List UInt8
  pcr : Option PcrSent
  deriving DecidableEq

/-- `tsshaper_ctx` without the timeline.  `muxer` is the state behind `write_opaque`. -/
structure Core (μ : Type) where
  cfg : Config
  layout : Layout
  clock : Clock
  pids : Nat → PidState
  programs : Nat → Program
  dtsEpochInvalid : Bool
  pendingDiscontinuity : Bool
  inDrive : Bool
  inDrain : Bool
  telTriggerMetrology : Bool
  telLast1sStc : Int
  nextPatTs : Int
  nextSdtTs : Int
  lastPid : Option Nat
  psiConsecutiveCount : Int
  muxer : μ
  out : List Emitted

/-- The input's time axis. -/
structure Timeline where
  firstDts : Int
  dtsOffset : Int
  /-- `last_dts_raw`, by PID. -/
  lastDtsRaw : Nat → Int

structure Tsshaper (μ : Type) where
  timeline : Timeline
  core : Core μ

variable {μ : Type}

def updPid (pids : Nat → PidState) (i : Nat) (f : PidState → PidState) : Nat → PidState :=
  fun k => if k = i then f (pids k) else pids k

/-- `for (i = 0; i < nb_all_pids; i++)`, where the body changes `all_pids[i]` only. -/
def mapPids (n : Nat) (pids : Nat → PidState) (f : PidState → PidState) : Nat → PidState :=
  fun k => if k < n then f (pids k) else pids k

def tssGetState (c : Core μ) (streamIndex : Nat) : Option Nat :=
  if streamIndex ≥ c.cfg.nbStreams then none else c.layout.streamIndexToPid streamIndex

/-- `is_master`: the PID carries the PCR of a program. -/
def isMaster (c : Core μ) (i : Nat) : Bool :=
  (List.range c.layout.nbPrograms).any fun g => (c.programs g).pcrPid = (c.pids i).pid

/-! ## `tsshaper_create` and `tsshaper_add_pid` -/

/-- The clocks of a new shaper. -/
def Clock.init : Clock where
  vStc := noptsValue
  physicalStc := noptsValue
  stcBase := noptsValue
  stcRem := 0
  stcOffset := 0
  nextSlotStc := 0
  lastRefillPhysicalStc := noptsValue
  maxDtsSeen := 0
  packetCount := 0

/-- The timeline of a new shaper, and of one whose PIDs have seen no DTS. -/
def Timeline.init : Timeline := ⟨noptsValue, 0, fun _ => noptsValue⟩

/-- The rates and sizes `tsshaper_add_pid` chooses by type. -/
structure PidRates where
  bitrateBps : Int
  baseRefillRateBps : Int
  bucketSizeBits : Int
  rxRateBps : Int
  fifoCapacity : Int
  tbSizeBits : Int

/-- The refill rate of a video PID: payload, TS headers, PCR and PES headers, and 5 %. -/
def videoRefillRate (cfg : Config) (br : Nat) : Int :=
  let pcrOverheadBps : Int := if cfg.pcrPeriodMs > 0 then (64000 / cfg.pcrPeriodMs : Nat) else 2133
  let tsHeaderOverheadBps : Int := (br * 4 / 184 : Nat)
  let pesOverheadBps : Int := 50 * 152
  ((br + tsHeaderOverheadBps + pcrOverheadBps + pesOverheadBps) * 1050).tdiv 1000

/-- The depth of a video PID's bucket, in ms. -/
def adaptiveMs (br : Nat) : Nat :=
  if br ≤ 800000 then 10 else if br ≥ 1600000 then 20 else 10 + (br - 800000) * 10 / 800000

def pidRates (cfg : Config) (br : Nat) : PidType → PidRates
  | .video =>
    { bitrateBps := videoRefillRate cfg br
      baseRefillRateBps := videoRefillRate cfg br
      bucketSizeBits := max (tsPacketBits * 8) (br * adaptiveMs br / 1000 : Nat)
      rxRateBps := max ((cfg.muxRate * 120 : Int).tdiv 100) 20000000
      fifoCapacity := cfg.maxFifoSize
      tbSizeBits := 3 * tsPacketBits }
  | .audio =>
    { bitrateBps := 0
      baseRefillRateBps := 2000000
      bucketSizeBits := 3 * tsPacketBits
      rxRateBps := 2000000
      fifoCapacity := 1024 * 1024
      tbSizeBits := 512 * 8 }
  | _ =>
    { bitrateBps := 0
      baseRefillRateBps := 128000
      bucketSizeBits := tsPacketBits * 16
      rxRateBps := 2000000
      fifoCapacity := 256 * 1024
      tbSizeBits := 512 * 8 }

/-- The PID `tsshaper_add_pid` allocates. -/
def newPid (cfg : Config) (pidNum : Nat) (type : PidType) (br : Nat) : PidState :=
  let r := pidRates cfg br type
  let buffered := (r.bitrateBps * 100).tdiv 1000
  { pid := pidNum
    type
    tsFifo := tssFifoAlloc r.fifoCapacity.toNat
    fifoCapacity := r.fifoCapacity
    vbvSizeBits := r.fifoCapacity * 8
    tokensBits := min r.bucketSizeBits (tsPacketBits * 2)
    bucketSizeBits := r.bucketSizeBits
    baseRefillRateBps := r.baseRefillRateBps
    effectiveRefillRateBps := 0
    tokenRemainder := 0
    bitrateBps := r.bitrateBps
    continuousFullnessBits := buffered
    tbFullnessBits := 0
    tbSizeBits := r.tbSizeBits
    rxRateBps := r.rxRateBps
    tbLeakRemainder := 0
    -- `TSS_BUFFER_FLOOR_BITS`, except for audio
    bufferLevelBits := if type = .audio then buffered else max (tsPacketBits * 2) buffered
    auEvents := if type = .video ∨ type = .audio then some [] else none
    cc := 15
    burstCount := 0
    needsDiscontinuity := false
    needResync := false
    isCurrentAuKey := false
    pacingTokens := precScale
    piIntegral := 0
    isPanicMode := false
    isUrgent := false
    waitIdrStartStc := 0
    telAvgCount := 0
    telInputEmaBps := 0
    rxBytesTotal := 0
    fifoAcceptBytes := 0
    muxOutputBytes := 0
    dropBytesTotal := 0
    windowStartAcceptBytes := 0
    secSumWindowInBps := 0
    secNumWindows := 0
    lastDisplayInBps := 0
    last1sAcceptBytes := 0
    telSecSlackMin27m := 10 * sysClockFreq
    streamOffset := 0
    avgFrameDuration := 0
    state := .normal
    confirmStreak := 0
    candidateJump := 0
    confirmStartPhysicalStc := 0 }

/-- `tsshaper_create`.  `programs` and `muxer` are the muxer's own; so are, once it has filled them
    in, the fields of the layout that `tsshaper_add_pid` does not set. -/
def tsshaperCreate (cfg : Config) (programs : Nat → Program) (muxer : μ) : Tsshaper μ where
  timeline := Timeline.init
  core :=
    { cfg, programs, muxer
      layout :=
        { nbAllPids := 0
          nbPrograms := if cfg.nbStreams = 0 then 1 else cfg.nbStreams
          pidMap := fun _ => none
          streamIndexToPid := fun _ => none
          patPidState := none
          sdtPidState := none
          patPeriod := 0
          sdtPeriod := 0
          streamIndexToPid_lt := fun _ _ h => by cases h }
      clock := Clock.init
      -- beyond `nb_all_pids` the table holds NULL; what stands here is never read
      pids := fun _ => newPid cfg 0 .data 0
      dtsEpochInvalid := false
      pendingDiscontinuity := false
      inDrive := false
      inDrain := false
      telTriggerMetrology := false
      telLast1sStc := noptsValue
      nextPatTs := 0
      nextSdtTs := 0
      lastPid := none
      psiConsecutiveCount := 0
      out := [] }

/-- `tsshaper_add_pid`; `none` is its `-1`. -/
def tsshaperAddPid (s : Tsshaper μ) (pidNum : Nat) (type : PidType) (br : Nat) :
    Option (Tsshaper μ) :=
  if pidNum ≥ 8192 then none
  else
    let i := s.core.layout.nbAllPids
    some
      { timeline := { s.timeline with
          lastDtsRaw := fun k => if k = i then noptsValue else s.timeline.lastDtsRaw k }
        core := { s.core with
          layout := { s.core.layout with
            nbAllPids := i + 1
            pidMap := fun n => if n = pidNum then some i else s.core.layout.pidMap n
            streamIndexToPid_lt := fun n k h =>
              Nat.lt_succ_of_lt (s.core.layout.streamIndexToPid_lt n k h) }
          pids := updPid s.core.pids i fun _ => newPid s.core.cfg pidNum type br } }

/-- A muxer with one video stream at 4 Mbit/s, PID 0x100, which carries the PCR of the one
    program. -/
def oneStream (cfg : Config) (pcrPacketPeriod : Int) : Core Unit :=
  let program : Program :=
    { pcrPid := 0x100, pcrPidState := 0, pcrPacketPeriod, nextPcrPacket := 0
      lastPcrVal := noptsValue, pids := [0], pcrCount := 0, pcrWindowStartPcr := noptsValue }
  { (tsshaperCreate cfg (fun _ => program) ()).core with
    layout :=
      { nbAllPids := 1
        nbPrograms := 1
        pidMap := fun n => if n = 0x100 then some 0 else none
        streamIndexToPid := fun n => if n = 0 then some 0 else none
        patPidState := none
        sdtPidState := none
        patPeriod := sysClockFreq
        sdtPeriod := sysClockFreq
        streamIndexToPid_lt := by
          intro n i h
          split at h
          · cases h
            decide
          · cases h }
    pids := fun _ => newPid cfg 0x100 .video 4000000 }

end TsAnalyzer.Shaper
