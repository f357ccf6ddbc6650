/-
  The output path of the shaper (`tsshaper.c`, `tss_metrics.c`): one slot of the multiplex
  (`tss_step_internal`), and the calls that run slots, `tsshaper_drive` and `tsshaper_drain`.

  A slot reads and writes the `Core` only.  It is a gate on the physical clock, then stages in the
  order of the source: the clock, the leak of the transport buffers, the choice of what to send, the
  emission, and the bookkeeping after it.

  `si_cb` is the muxer's code: it is a parameter, a function of the muxer's state that returns the
  table packets it enqueues.  `write_cb` is the log `out`.
-/
import TsAnalyzer.Shaper.Scheduler

namespace TsAnalyzer.Shaper

variable {μ : Type}

/-- `si_cb(opaque, force_pat, force_sdt, v_stc)`: the muxer's new state, and the packets it hands to
    `tsshaper_enqueue_ts`. -/
abbrev SiCallback (μ : Type) := μ → Bool → Bool → Int → μ × List (Nat × Packet)

/-- A muxer without `si_cb`. -/
def noTables : SiCallback Unit := fun m _ _ _ => (m, [])

/-! ## The clock and the transport buffers -/

def nextPhysicalStc (c : Core μ) : Int :=
  if c.clock.physicalStc = noptsValue then c.clock.stcOffset
  else c.clock.physicalStc + c.cfg.ticksPerPacket

/-- The fractional clock, one packet later; `den` is `mux_rate`. -/
def advanceStc (cfg : Config) (k : Clock) : Clock :=
  if k.stcBase = noptsValue then { k with stcBase := k.stcOffset, stcRem := 0, vStc := k.stcOffset }
  else
    let carry : Bool := k.stcRem + cfg.remPerPacket ≥ cfg.muxRate
    let base := k.stcBase + cfg.ticksPerPacket + if carry then 1 else 0
    let rem := k.stcRem + cfg.remPerPacket - if carry then (cfg.muxRate : Int) else 0
    { k with stcBase := base, stcRem := rem, vStc := base }

/-- `pcr_ideal`: the physical clock at the byte that carries the PCR. -/
def pcrTicks (cfg : Config) : Int := (11 * 8 * sysClockFreq).tdiv cfg.muxRate

def pcrIdeal (c : Core μ) : Int := c.clock.physicalStc + pcrTicks c.cfg

/-- The leak of one transport buffer over `delta` ticks. -/
def leakPid (delta : Int) (p : PidState) : PidState :=
  let workBits := delta * p.rxRateBps + p.tbLeakRemainder
  { p with
    tbLeakRemainder := workBits.tmod sysClockFreq
    tbFullnessBits := max 0 (p.tbFullnessBits - workBits.tdiv sysClockFreq) }

/-- The leak of all transport buffers. -/
def leakAll (c : Core μ) : Nat → PidState :=
  let delta := nextPhysicalStc c - c.clock.physicalStc
  if c.clock.physicalStc ≠ noptsValue ∧ delta > 0 then
    mapPids c.layout.nbAllPids c.pids (leakPid delta)
  else c.pids

/-! ## What to send -/

/-- `ACT_NULL`, `ACT_PCR_ONLY` with its program, `ACT_PAYLOAD` with its PID.  No path of the source
    selects `ACT_PAYLOAD_PCR`. -/
inductive Action where
  | null
  | pcrOnly (program : Nat)
  | payload (pid : Nat)
  deriving DecidableEq

def duePcr (c : Core μ) : Option Nat :=
  (List.range c.layout.nbPrograms).find? fun g => c.clock.packetCount ≥ (c.programs g).nextPcrPacket

/-- `es_is_congested`: more than a second of data. -/
def congested (p : PidState) : Bool :=
  p.bitrateBps > 0 ∧ queueDelayMs p (max p.bitrateBps 1000) > 1000

/-- The next table packet: PAT, then SDT, then the PIDs from index 2 on, one for each program. -/
def tablePid (c : Core μ) : Option Nat :=
  let tables := (List.range c.layout.nbPrograms).filterMap fun g =>
    if 2 + g < c.layout.nbAllPids then some (2 + g) else none
  (c.layout.patPidState.toList ++ c.layout.sdtPidState.toList ++ tables).find? fun i =>
    hasPacket (c.pids i)

/-- The video PID that may send although the scheduler passed over it. -/
def fallbackPid (c : Core μ) : Option Nat :=
  (List.range c.layout.nbAllPids).find? fun i =>
    let p := c.pids i
    let floorMs := ((c.cfg.muxDelay27m * 12).tdiv 10).tdiv 27000
    let ratio :=
      if p.bitrateBps > 0 ∧ floorMs > 0 then
        (queueDelayMs p (max p.bitrateBps 1000) * 1000).tdiv floorMs
      else 0
    p.type = .video ∧ hasPacket p ∧ p.tokensBits ≥ tsPacketBits ∧ (ratio > 1100 ∨ p.isUrgent)

/-- The priority tree: PCR, congestion, tables, elementary streams, and the fallback. -/
def chooseAction (c : Core μ) (es : Option Nat) : Action :=
  let esCongested : Bool := match es with
    | some i => congested (c.pids i)
    | none => false
  match duePcr c with
  | some g =>
    match es with
    | some i =>
      if esCongested ∧ c.clock.packetCount < (c.programs g).nextPcrPacket + 2 then .payload i
      else .pcrOnly g
    | none => .pcrOnly g
  | none =>
    match if c.psiConsecutiveCount < 2 then tablePid c else none with
    | some i => .payload i
    | none =>
      match es with
      | some i => .payload i
      | none =>
        match fallbackPid c with
        | some i => .payload i
        | none => .null

/-! ## Emission -/

/-- A byte of a packet, as C stores an integer in a `uint8_t`. -/
def byteOf (x : Int) : UInt8 := UInt8.ofNat (x % 256).toNat

/-- The six bytes `inject_pcr` writes. -/
def injectPcr (pcr : Int) : List UInt8 :=
  let base := (pcr.tdiv 300) % 2 ^ 33
  let ext := pcr.tmod 300
  [byteOf (base >>> 25), byteOf (base >>> 17), byteOf (base >>> 9), byteOf (base >>> 1),
    ((byteOf (base % 2) <<< 7) ||| (0x7e : UInt8)) ||| byteOf (ext >>> 8), byteOf ext]

def nullPacket : List UInt8 := [0x47, 0x1f, 0xff, 0x10] ++ List.replicate 184 0xff

/-- A packet that carries a PCR and nothing else. -/
def pcrPacket (pid : Nat) (cc : UInt8) (discontinuity : Bool) (pcr : Int) : List UInt8 :=
  [0x47, UInt8.ofNat (pid / 256) &&& 0x1f, UInt8.ofNat pid, 0x20 ||| (cc &&& 0x0f), 183,
    if discontinuity then 0x90 else 0x10] ++ injectPcr pcr ++ List.replicate 176 0xff

/-- The PCR of a program: the ideal one, or one tick past the last where that is not ahead.  A
    pending discontinuity forgets the last. -/
def pcrOf (c : Core μ) (g : Nat) : Int :=
  let last := if c.pendingDiscontinuity then noptsValue else (c.programs g).lastPcrVal
  if last ≠ noptsValue ∧ pcrIdeal c ≤ last then last + 1 else pcrIdeal c

def closeWindow (duration : Int) (p : PidState) : PidState :=
  if p.type = .video ∧ duration > 0 then
    let inBytes := p.fifoAcceptBytes - p.windowStartAcceptBytes
    { p with
      secSumWindowInBps := p.secSumWindowInBps + (inBytes * 8 * sysClockFreq).tdiv duration
      secNumWindows := p.secNumWindows + 1
      windowStartAcceptBytes := p.fifoAcceptBytes }
  else p

/-- The start of the first measuring window for one PID. -/
def openWindow (p : PidState) : PidState :=
  if p.type = .video then { p with windowStartAcceptBytes := p.fifoAcceptBytes } else p

/-- The measuring windows of a program, at a PCR: the PIDs, the program's window, and whether a
    window closed. -/
def pcrWindow (c : Core μ) (g : Nat) (pcr : Int) : (Nat → PidState) × Program × Bool :=
  let prog := c.programs g
  let opened : Bool := prog.pcrWindowStartPcr = noptsValue
  let pids := if opened then prog.pids.foldl (fun t i => updPid t i openWindow) c.pids else c.pids
  let start := if opened then pcr else prog.pcrWindowStartPcr
  if c.cfg.pcrWindowSize > 0 ∧ prog.pcrCount + 1 ≥ c.cfg.pcrWindowSize then
    (prog.pids.foldl (fun t i => updPid t i (closeWindow (pcr - start))) pids,
      { prog with pcrWindowStartPcr := pcr, pcrCount := 0 }, true)
  else (pids, { prog with pcrWindowStartPcr := start, pcrCount := prog.pcrCount + 1 }, false)

/-- What every sent packet costs its PID. -/
def chargePid (p : PidState) : PidState :=
  { p with
    muxOutputBytes := p.muxOutputBytes + tsPacketSize
    tbFullnessBits := p.tbFullnessBits + tsPacketBits
    tokensBits := p.tokensBits - tsPacketBits }

/-- `psi_consecutive_count` after a packet of a PID. -/
def countPsi (c : Core μ) (i : Nat) : Int :=
  if (c.pids i).type = .psi then c.psiConsecutiveCount + 1 else 0

/-- `ACT_PCR_ONLY`. -/
def emitPcr (c : Core μ) (g : Nat) : Core μ :=
  let pcr := pcrOf c g
  let i := (c.programs g).pcrPidState
  let (pids, prog, closed) := pcrWindow c g pcr
  let prog := { prog with
    lastPcrVal := pcr, nextPcrPacket := prog.nextPcrPacket + prog.pcrPacketPeriod }
  { c with
    pids := updPid pids i chargePid
    programs := fun k => if k = g then prog else c.programs k
    pendingDiscontinuity := false
    telTriggerMetrology := c.telTriggerMetrology ∨ closed
    psiConsecutiveCount := countPsi c i
    out := c.out ++
      [{ slot := c.clock.packetCount
         pkt := pcrPacket (c.pids i).pid (c.pids i).cc c.pendingDiscontinuity pcr
         pcr := some ⟨g, pcr, c.pendingDiscontinuity⟩ }] }

/-- A payload packet leaves the FIFO.  `read` does not fail: every path to this action has seen a
    whole packet in it. -/
def takePacket (p : PidState) : List UInt8 × PidState :=
  match p.tsFifo.read tsPacketSize with
  | none => ([], p)
  | some (pkt, f) => (pkt, { p with tsFifo := f, cc := pkt.getD 3 0 &&& 0x0f })

/-- The burst counters: the PID's own goes on or starts, the last one's ends. -/
def countBurst (c : Core μ) (pids : Nat → PidState) (i : Nat) : Nat → PidState :=
  if c.lastPid = some i then updPid pids i fun p => { p with burstCount := p.burstCount + 1 }
  else
    let pids := match c.lastPid with
      | some l => updPid pids l fun p => { p with burstCount := 0 }
      | none => pids
    updPid pids i fun p => { p with burstCount := 1 }

/-- `ACT_PAYLOAD`. -/
def emitPayload (c : Core μ) (i : Nat) : Core μ :=
  let r := takePacket (c.pids i)
  let pids := updPid c.pids i fun _ =>
    let p := chargePid r.2
    { p with continuousFullnessBits := max 0 (p.continuousFullnessBits - tsPacketBits) }
  { c with
    pids := countBurst c pids i
    psiConsecutiveCount := countPsi c i
    lastPid := some i
    out := c.out ++ [{ slot := c.clock.packetCount, pkt := r.1, pcr := none }] }

/-- `ACT_NULL`; while draining the slot is left empty. -/
def emitNull (c : Core μ) : Core μ :=
  if c.inDrain then c
  else
    { c with
      psiConsecutiveCount := 0
      out := c.out ++ [{ slot := c.clock.packetCount, pkt := nullPacket, pcr := none }] }

def emit (c : Core μ) : Action → Core μ
  | .null => emitNull c
  | .pcrOnly g => emitPcr c g
  | .payload i => emitPayload c i

/-! ## After the emission -/

/-- The panic mode of one PID, from the level of its model buffer. -/
def panicPid (p : PidState) : PidState :=
  if p.auEvents.isSome ∧ p.vbvSizeBits > 0 then
    if p.bufferLevelBits > (p.vbvSizeBits * 98).tdiv 100 then { p with isPanicMode := true }
    else if p.isPanicMode ∧ p.bufferLevelBits < (p.vbvSizeBits * 90).tdiv 100 then
      { p with isPanicMode := false }
    else p
  else p

/-- The access units whose decoding time has come leave the model buffer. -/
def removeUnits (vStc : Int) : Int → List AccessUnit → Int × List AccessUnit
  | level, [] => (level, [])
  | level, au :: aus =>
    if vStc ≥ au.dts then
      removeUnits vStc (if level > au.sizeBits then level - au.sizeBits else 0) aus
    else (level, au :: aus)

def decodePid (vStc : Int) (p : PidState) : PidState :=
  match p.auEvents with
  | none => p
  | some aus =>
    let r := removeUnits vStc p.bufferLevelBits aus
    { p with bufferLevelBits := r.1, auEvents := some r.2 }

/-- `tss_account_metrology` for one PID. -/
def measurePid (p : PidState) : PidState :=
  let p :=
    if p.type = .video then
      let inBps := (p.fifoAcceptBytes - p.last1sAcceptBytes) * 8
      let display :=
        if p.secNumWindows > 0 then p.secSumWindowInBps.tdiv p.secNumWindows else inBps
      let p := { p with
        last1sAcceptBytes := p.fifoAcceptBytes
        lastDisplayInBps := display
        secSumWindowInBps := if p.secNumWindows > 0 then 0 else p.secSumWindowInBps
        secNumWindows := if p.secNumWindows > 0 then 0 else p.secNumWindows }
      if p.bitrateBps > 0 then
        { p with
          telInputEmaBps :=
            if p.telInputEmaBps = 0 then p.bitrateBps
            else (p.telInputEmaBps * 9999 + display).tdiv 10000
          telAvgCount := p.telAvgCount + 1 }
      else p
    else p
  { p with telSecSlackMin27m := 10 * sysClockFreq }

def tssAccountMetrology (c : Core μ) : Core μ :=
  let vStc := c.clock.vStc
  let measured := mapPids c.layout.nbAllPids c.pids measurePid
  if c.cfg.pcrWindowSize = 0 then
    if c.telLast1sStc = noptsValue then { c with telLast1sStc := vStc }
    else if vStc - c.telLast1sStc ≥ sysClockFreq then
      { c with telLast1sStc := vStc, pids := measured }
    else c
  else if c.telTriggerMetrology then
    { c with telTriggerMetrology := false, telLast1sStc := vStc, pids := measured }
  else c

/-- Packets that `si_cb` enqueues. -/
def enqueueAll (c : Core μ) (pkts : List (Nat × Packet)) : Core μ :=
  pkts.foldl (fun c p => tsshaperEnqueueTs c p.1 p.2) c

/-- `si_cb`, called from a slot. -/
def retransmit (si : SiCallback μ) (forcePat forceSdt : Bool) (c : Core μ) : Core μ :=
  let r := si c.muxer forcePat forceSdt c.clock.vStc
  enqueueAll { c with muxer := r.1 } r.2

/-- The PAT is sent again. -/
def retransmitPat (si : SiCallback μ) (c : Core μ) : Core μ :=
  if c.clock.vStc - c.nextPatTs ≥ c.layout.patPeriod then
    { retransmit si true false c with nextPatTs := c.clock.vStc }
  else c

/-- The SDT is sent again. -/
def retransmitSdt (si : SiCallback μ) (c : Core μ) : Core μ :=
  if c.clock.vStc - c.nextSdtTs ≥ c.layout.sdtPeriod then
    { retransmit si false true c with nextSdtTs := c.clock.vStc }
  else c

/-- The clock of the next slot. -/
def closeSlot (c : Core μ) : Core μ :=
  { c with clock := { c.clock with
      nextSlotStc := c.clock.physicalStc + c.cfg.ticksPerPacket
      packetCount := c.clock.packetCount + 1 } }

def Core.mapPids (c : Core μ) (f : PidState → PidState) : Core μ :=
  { c with pids := Shaper.mapPids c.layout.nbAllPids c.pids f }

/-- `post_emission`, after the physical clock has moved to `next`. -/
def postEmission (si : SiCallback μ) (c : Core μ) (next : Int) : Core μ :=
  let c := tssRefillTokensFlywheel { c with clock := { c.clock with physicalStc := next } }
  let c := (closeSlot c).mapPids panicPid
  let c := retransmitSdt si (retransmitPat si c)
  tssAccountMetrology (c.mapPids (decodePid c.clock.vStc))

/-! ## `tss_step_internal` and the calls that run it -/

/-- The choice of the scheduler, with the PID table it leaves, at the new logical time. -/
def scheduled (c : Core μ) : Core μ × Action :=
  let c := { c with clock := advanceStc c.cfg c.clock, pids := leakAll c }
  let r := tssPickEsPid c
  let c := { c with pids := r.1 }
  (c, chooseAction c r.2)

/-- `tss_step_internal`: nothing before the next slot is reached. -/
def tssStepInternal (si : SiCallback μ) (c : Core μ) : Core μ :=
  if nextPhysicalStc c < c.clock.nextSlotStc then c
  else
    let r := scheduled c
    postEmission si (emit r.1 r.2) (nextPhysicalStc c)

/-- `target_stc` of `tsshaper_drive`. -/
def driveTarget (c : Core μ) : Int := c.clock.maxDtsSeen - c.cfg.muxDelay27m

/-- The output is more than 3 s behind. -/
def fuseBlows (c : Core μ) : Bool := driveTarget c - c.clock.vStc > sysClockFreq * 3

/-- The drive fuse: all clocks jump to the target. -/
def driveFuse (c : Core μ) : Core μ :=
  let target := driveTarget c
  if fuseBlows c then
    { c with
      clock := { c.clock with
        stcOffset := c.clock.stcOffset + (target - c.clock.vStc)
        vStc := target
        stcBase := target
        stcRem := 0
        physicalStc := target
        lastRefillPhysicalStc := target
        nextSlotStc := target }
      pids := mapPids c.layout.nbAllPids c.pids fun p =>
        { p with tokensBits := 0, tokenRemainder := 0 } }
  else c

def driveLoop (si : SiCallback μ) (target : Int) : Nat → Core μ → Core μ
  | 0, c => c
  | steps + 1, c =>
    if c.clock.vStc < target then driveLoop si target steps (tssStepInternal si c) else c

def tsshaperDrive (si : SiCallback μ) (c : Core μ) : Core μ :=
  if c.clock.vStc = noptsValue ∨ c.inDrive then c
  else
    { driveLoop si (driveTarget c) maxDriveSteps (driveFuse { c with inDrive := true }) with
      inDrive := false }

/-- `has_data` of `tsshaper_drain`: an audio or video FIFO holds a packet, or the clock is
    behind. -/
def drainPending (c : Core μ) : Bool :=
  ((List.range c.layout.nbAllPids).any fun i => isAv (c.pids i) ∧ hasPacket (c.pids i)) ∨
    c.clock.vStc < c.clock.maxDtsSeen

/-- The loop of `tsshaper_drain`, for at most `fuel` rounds; it ends by itself two seconds after
    `start`. -/
def drainLoop (si : SiCallback μ) (start : Int) : Nat → Core μ → Core μ
  | 0, c => c
  | fuel + 1, c =>
    if c.clock.vStc - start > 2 * sysClockFreq then c
    else if drainPending c then drainLoop si start fuel (tssStepInternal si c)
    else c

def tsshaperDrain (si : SiCallback μ) (fuel : Nat) (c : Core μ) : Core μ :=
  if c.clock.vStc = noptsValue then c
  else drainLoop si c.clock.vStc fuel { c with inDrain := true }

def tsshaperResetTimeline (s : Tsshaper μ) : Tsshaper μ where
  timeline := { s.timeline with lastDtsRaw := fun k =>
    if k < s.core.layout.nbAllPids then noptsValue else s.timeline.lastDtsRaw k }
  core := { s.core.mapPids (fun p => { p with tsFifo := p.tsFifo.reset }) with
    clock := { s.core.clock with vStc := noptsValue, physicalStc := noptsValue }
    dtsEpochInvalid := true }

/-- The calls of the library, after the set-up. -/
inductive Call where
  | enqueueDts (pidNum : Nat) (dts27m : Int) (isKey : Bool)
  | enqueueTs (pidNum : Nat) (pkt : Packet)
  | drive
  | drain (fuel : Nat)
  | resetTimeline

def callStep (si : SiCallback μ) (s : Tsshaper μ) : Call → Tsshaper μ
  | .enqueueDts pidNum dts isKey => tsshaperEnqueueDts s pidNum dts isKey
  | .enqueueTs pidNum pkt => { s with core := tsshaperEnqueueTs s.core pidNum pkt }
  | .drive => { s with core := tsshaperDrive si s.core }
  | .drain fuel => { s with core := tsshaperDrain si fuel s.core }
  | .resetTimeline => tsshaperResetTimeline s

end TsAnalyzer.Shaper
