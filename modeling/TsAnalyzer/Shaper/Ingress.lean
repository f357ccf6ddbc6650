/-
  The input path of the shaper: `tss_internal_enqueue_packet` (`tss_io.c`), the jump voter
  (`tss_voter.c`), `tsshaper_enqueue_ts` and `tsshaper_enqueue_dts` (`tsshaper.c`).

  Each function is cut where the source changes its subject.  The voter reads the DTS through ONE
  number, the unwrapped step `delta_raw`: `voterPid` is the detector on that number, and
  `tssVoterProcess` carries out what it decides.
-/
import TsAnalyzer.Shaper.State

namespace TsAnalyzer.Shaper

open Lib

variable {μ : Type}

abbrev Packet := Nat → UInt8

def ffabs (a : Int) : Int := if a ≥ 0 then a else -a

/-! ## Packets: `tss_internal_enqueue_packet` -/

/-- `is_pcr`: the adaptation field holds a PCR. -/
def carriesPcr (pkt : Packet) : Bool :=
  pkt 3 &&& 0x20 ≠ 0 ∧ 7 ≤ (pkt 4).toNat ∧ pkt 5 &&& 0x10 ≠ 0

/-- `is_pusi`. -/
def startsUnit (pkt : Packet) : Bool := pkt 1 &&& 0x40 ≠ 0

/-- A packet for a video PID in `WAIT_IDR`, with the 3 s watchdog: the PID, whether the packet is
    dropped, and whether the epoch became invalid. -/
def waitForIdr (vStc : Int) (p : PidState) (isPcr : Bool) : PidState × Bool × Bool :=
  if p.type = .video ∧ p.state = .waitIdr ∧ ¬ isPcr then
    if p.waitIdrStartStc = 0 then ({ p with waitIdrStartStc := vStc }, false, false)
    else if vStc - p.waitIdrStartStc > 3 * sysClockFreq then
      ({ p with
          state := .normal, waitIdrStartStc := 0, needResync := true, needsDiscontinuity := true },
        false, true)
    else (p, true, false)
  else (p, false, false)

/-- Shedding above 90 % of the FIFO: video at the start of an access unit that is no key frame,
    audio above 95 % inside a PES packet, anything else at once. -/
def shed (vStc : Int) (p : PidState) (isPcr isPusi : Bool) : PidState × Bool :=
  if ¬ isPcr ∧ p.type ≠ .psi ∧ (p.tsFifo.size : Int) > (p.fifoCapacity * 9).tdiv 10 then
    match p.type with
    | .video =>
      if isPusi ∧ ¬ p.isCurrentAuKey then
        ({ p with state := .waitIdr, waitIdrStartStc := vStc, needResync := true }, true)
      else (p, false)
    | .audio => (p, (p.tsFifo.size : Int) > (p.fifoCapacity * 95).tdiv 100 ∧ ¬ isPusi)
    | _ => (p, true)
  else (p, false)

/-- The rotation loop of a full PSI FIFO: drain packets up to the next start of a section. -/
def rotateLoop (f : TssFifo) : TssFifo :=
  if _h : tsPacketSize ≤ f.size then
    if ((f.peek tsPacketSize 0).getD []).getD 1 0 &&& 0x40 ≠ 0 then f
    else rotateLoop (f.drain tsPacketSize)
  else f
termination_by f.size
decreasing_by exact TssFifo.drain_size_lt (by decide) _h

/-- `tss_fifo_write(ts_fifo, packet, 188)`, the result ignored. -/
def TssFifo.put (f : TssFifo) (pkt : Packet) : TssFifo :=
  (f.write (bytesAt pkt 0 tsPacketSize)).getD f

/-- The packet goes into the FIFO, or is dropped; a full PSI FIFO makes room for a new section. -/
def storePacket (p : PidState) (pkt : Packet) (drop : Bool) : PidState :=
  if ¬ drop ∧ p.fifoCapacity - p.tsFifo.size ≥ tsPacketSize then
    { p with tsFifo := p.tsFifo.put pkt, fifoAcceptBytes := p.fifoAcceptBytes + tsPacketSize }
  else
    { p with
      dropBytesTotal := p.dropBytesTotal + tsPacketSize
      needsDiscontinuity := p.needsDiscontinuity ∨ p.type = .video ∨ p.type = .audio
      tsFifo :=
        if p.type = .psi ∧ startsUnit pkt then
          (rotateLoop (p.tsFifo.drain tsPacketSize)).put pkt
        else p.tsFifo }

/-- `tss_internal_enqueue_packet`: the PID, and whether the epoch became invalid. -/
def tssInternalEnqueuePacket (vStc : Int) (p : PidState) (pkt : Packet) : PidState × Bool :=
  let p := { p with rxBytesTotal := p.rxBytesTotal + tsPacketSize }
  let (p, drop, invalid) := waitForIdr vStc p (carriesPcr pkt)
  let (p, drop) :=
    if drop then (p, true) else shed vStc p (carriesPcr pkt) (startsUnit pkt)
  (storePacket p pkt drop, invalid)

def tsshaperEnqueueTs (c : Core μ) (pidNum : Nat) (pkt : Packet) : Core μ :=
  match c.layout.pidMap pidNum with
  | none => c
  | some i =>
    let r := tssInternalEnqueuePacket c.clock.vStc (c.pids i) pkt
    { c with
      pids := updPid c.pids i fun _ => r.1
      dtsEpochInvalid := c.dtsEpochInvalid ∨ r.2 }

/-! ## The voter -/

inductive JumpLevel where
  | jitter | soft | suspicious | hard
  deriving DecidableEq

def unwrapDelta (delta : Int) : Int :=
  if delta < (-timelineModulo).tdiv 2 then delta + timelineModulo
  else if delta > timelineModulo.tdiv 2 then delta - timelineModulo
  else delta

def jumpLevel (deltaMs : Int) : JumpLevel :=
  if ffabs deltaMs < 50 then .jitter
  else if ffabs deltaMs < 500 then .soft
  else if ffabs deltaMs < 2000 then .suspicious
  else .hard

/-- The moving average of the frame duration. -/
def estimateStep (p : PidState) (delta : Int) : PidState :=
  if jumpLevel (delta.tdiv 27000) = .jitter then
    { p with avgFrameDuration :=
        if p.avgFrameDuration = 0 then ffabs delta
        else (p.avgFrameDuration * 15 + ffabs delta) >>> 4 }
  else p

def startConfirming (physicalStc : Int) (p : PidState) (delta : Int) : PidState :=
  { p with
    state := .confirming
    confirmStreak := 1
    candidateJump := delta
    confirmStartPhysicalStc := if physicalStc ≠ noptsValue then physicalStc else 0 }

/-- What the voter decides. -/
inductive Verdict where
  /-- `return 0`. -/
  | keep
  /-- A jump that a slave confirmed: `last_dts_raw` follows, and `return 0`. -/
  | follow
  /-- A jump that a master confirmed: the timeline is translated, and `return 1`. -/
  | translate (jump : Int)
  deriving DecidableEq

/-- A DTS step while a jump is being confirmed, before the timeout. -/
def confirmStep (physicalStc : Int) (master : Bool) (p : PidState) (delta : Int) :
    PidState × Verdict :=
  if ffabs (delta - p.candidateJump) < 500 * 27000 then
    let p := { p with confirmStreak := p.confirmStreak + 1 }
    if p.confirmStreak ≥ 3 then
      if ¬ master then
        ({ p with
            state := .normal, confirmStreak := 0,
            streamOffset := p.streamOffset + p.candidateJump },
          .follow)
      else (p, .translate p.candidateJump)
    else (p, .keep)
  else if ffabs (delta.tdiv 27000) < 500 then
    ({ p with state := .normal, confirmStreak := 0 }, .keep)
  else (startConfirming physicalStc p delta, .keep)

/-- A DTS step in any other state. -/
def detectStep (physicalStc : Int) (p : PidState) (delta : Int) : PidState :=
  match jumpLevel (delta.tdiv 27000) with
  | .jitter => p
  | .soft =>
    let expectedStep := if p.avgFrameDuration > 0 then p.avgFrameDuration else 40 * 27000
    { p with streamOffset := p.streamOffset + (delta - expectedStep) }
  | _ => startConfirming physicalStc p delta

/-- `tss_voter_process` on the unwrapped step. -/
def voterPid (physicalStc : Int) (master : Bool) (p : PidState) (delta : Int) :
    PidState × Verdict :=
  let p := estimateStep p delta
  if p.state = .confirming then
    if physicalStc ≠ noptsValue ∧ p.confirmStartPhysicalStc ≠ noptsValue ∧
        ffabs (physicalStc - p.confirmStartPhysicalStc) > 500 * 27000 then
      ({ p with state := .normal, confirmStreak := 0 }, .keep)
    else confirmStep physicalStc master p delta
  else (detectStep physicalStc p delta, .keep)

theorem voterPid_fields (physicalStc : Int) (master : Bool) (p : PidState) (delta : Int) :
    ∃ average state streak jump start offset, (voterPid physicalStc master p delta).1 = { p with
      avgFrameDuration := average, state := state, confirmStreak := streak, candidateJump := jump
      confirmStartPhysicalStc := start, streamOffset := offset } := by
  have hestimate : ∃ average, estimateStep p delta = { p with avgFrameDuration := average } := by
    unfold estimateStep
    split
    · exact ⟨_, rfl⟩
    · exact ⟨_, rfl⟩
  obtain ⟨average, haverage⟩ := hestimate
  unfold voterPid
  rw [haverage]
  dsimp only
  split
  · split
    · exact ⟨_, _, _, _, _, _, rfl⟩
    · unfold confirmStep
      dsimp only
      split
      · split
        · split <;> exact ⟨_, _, _, _, _, _, rfl⟩
        · exact ⟨_, _, _, _, _, _, rfl⟩
      · split <;> exact ⟨_, _, _, _, _, _, rfl⟩
  · unfold detectStep
    split <;> exact ⟨_, _, _, _, _, _, rfl⟩

/-- The tokens a PID starts a new epoch with. -/
def reanchorTokens (p : PidState) : Int :=
  if p.bitrateBps > 0 then (p.bitrateBps * reanchorTokenMs).tdiv 1000 else tsPacketBits * 20

/-- The translation of the whole timeline by a confirmed jump. -/
def translateCore (c : Core μ) (jump : Int) : Core μ :=
  let base := c.clock.stcBase + jump
  { c with
    clock := { c.clock with
      stcBase := base
      stcOffset := c.clock.stcOffset + jump
      vStc := base
      physicalStc := base
      lastRefillPhysicalStc := base
      nextSlotStc := base }
    pendingDiscontinuity := true
    pids := mapPids c.layout.nbAllPids c.pids fun p =>
      { p with
        tokensBits := reanchorTokens p
        streamOffset := (p.streamOffset * 1).tdiv 2
        state := .normal
        confirmStreak := 0
        needResync := true } }

def Timeline.setLastDts (t : Timeline) (i : Nat) (dts : Int) : Timeline :=
  { t with lastDtsRaw := fun k => if k = i then dts else t.lastDtsRaw k }

/-- `tss_voter_process`; the flag is its return value. -/
def tssVoterProcess (s : Tsshaper μ) (i : Nat) (input : Int) : Tsshaper μ × Bool :=
  let delta := unwrapDelta (input - s.timeline.lastDtsRaw i)
  let r := voterPid s.core.clock.physicalStc (isMaster s.core i) (s.core.pids i) delta
  let c := { s.core with pids := updPid s.core.pids i fun _ => r.1 }
  match r.2 with
  | .keep => (⟨s.timeline, c⟩, false)
  | .follow => (⟨s.timeline.setLastDts i input, c⟩, false)
  | .translate jump =>
    (⟨{ s.timeline with dtsOffset := s.timeline.dtsOffset + jump }, translateCore c jump⟩, true)

/-! ## `tsshaper_enqueue_dts` -/

/-- A key frame (or any frame that is not video) ends `WAIT_IDR`. -/
def resumeFromWaitIdr (c : Core μ) (i : Nat) : Core μ :=
  if (c.pids i).state = .waitIdr then
    { c with
      pids := updPid c.pids i fun p =>
        { p with state := .normal, waitIdrStartStc := 0, needResync := true }
      dtsEpochInvalid := true }
  else c

/-- The timeline is (re-)anchored at this DTS. -/
def anchors (s : Tsshaper μ) (isKey : Bool) : Bool :=
  s.timeline.firstDts = noptsValue ∨ (s.core.dtsEpochInvalid ∧ isKey)

/-- The first anchor: the clocks start 400 ms before nine tenths of the mux delay. -/
def anchorClock (c : Core μ) : Core μ :=
  let target := (c.cfg.muxDelay27m * 9).tdiv 10
  let base := target - 400 * 27000
  { c with
    clock := { c.clock with
      stcBase := base, stcRem := 0, vStc := base, physicalStc := base, nextSlotStc := base
      stcOffset := base, maxDtsSeen := target } }

/-- A new anchor on running clocks: the FIFOs are emptied and the next PCR is flagged. -/
def reanchorCore (c : Core μ) : Core μ :=
  { c with
    clock := { c.clock with maxDtsSeen := c.clock.vStc + (c.cfg.muxDelay27m * 8).tdiv 10 }
    dtsEpochInvalid := false
    pendingDiscontinuity := true
    pids := mapPids c.layout.nbAllPids c.pids fun p =>
      { p with
        tsFifo := p.tsFifo.drain p.tsFifo.size
        auEvents := p.auEvents.map fun _ => []
        bufferLevelBits := 0
        continuousFullnessBits := 0
        tbFullnessBits := 0 } }

/-- What both anchors end with. -/
def restartPids (c : Core μ) : Core μ :=
  { c with
    clock := { c.clock with lastRefillPhysicalStc := c.clock.vStc }
    pids := mapPids c.layout.nbAllPids c.pids fun p =>
      { p with last1sAcceptBytes := 0, tokensBits := reanchorTokens p, needResync := true } }

/-- What stands between a DTS and the output's time axis once the timeline is anchored at it. -/
def anchorLead (c : Core μ) : Int :=
  if c.clock.vStc = noptsValue then (c.cfg.muxDelay27m * 9).tdiv 10
  else c.clock.vStc + (c.cfg.muxDelay27m * 8).tdiv 10

/-- The anchor block of `tsshaper_enqueue_dts`. -/
def anchorAt (s : Tsshaper μ) (input : Int) : Tsshaper μ where
  timeline := { s.timeline with firstDts := input, dtsOffset := input - anchorLead s.core }
  core := restartPids
    (if s.core.clock.vStc = noptsValue then anchorClock s.core else reanchorCore s.core)

def clampRelDts (vStc rel : Int) : Int :=
  let rel := if rel < vStc + 2 * 27000 ∧ vStc ≠ noptsValue then vStc + 2 * 27000 else rel
  if rel < vStc - lateThreshold then vStc - lateMargin else rel

def raiseMaxDts (clock : Clock) (master : Bool) (rel : Int) : Clock :=
  if rel > clock.maxDtsSeen ∧ (master ∨ clock.packetCount < 10000 ∨ clock.maxDtsSeen = 0) then
    { clock with maxDtsSeen := rel }
  else clock

/-- The core after an accepted DTS that lies at `rel` on the output's time axis. -/
def arriveCore (c : Core μ) (i : Nat) (rel : Int) : Core μ :=
  { c with
    clock := raiseMaxDts c.clock (isMaster c i) (clampRelDts c.clock.vStc rel)
    pids := updPid c.pids i fun p =>
      { p with
        rxBytesTotal := p.rxBytesTotal + tsPacketSize
        isUrgent :=
          p.isUrgent ∨ (rel < c.clock.vStc + 2 * 27000 ∧ c.clock.vStc ≠ noptsValue) } }

/-- The end of `tsshaper_enqueue_dts`, after the voter. -/
def arrive (s : Tsshaper μ) (i : Nat) (input : Int) : Tsshaper μ where
  timeline :=
    if (s.core.pids i).state ≠ .confirming then s.timeline.setLastDts i input else s.timeline
  core := arriveCore s.core i (input - s.timeline.dtsOffset)

/-- The first DTS of a PID, or the first after a resync, is taken as it is. -/
def resync (s : Tsshaper μ) (i : Nat) (input : Int) : Tsshaper μ where
  timeline := s.timeline.setLastDts i input
  core := { s.core with pids := updPid s.core.pids i fun p => { p with needResync := false } }

/-- A DTS on an anchored timeline: resync or vote, then arrive. -/
def acceptDts (s : Tsshaper μ) (i : Nat) (input : Int) : Tsshaper μ :=
  if s.timeline.lastDtsRaw i = noptsValue ∨ (s.core.pids i).needResync then
    arrive (resync s i input) i input
  else
    let r := tssVoterProcess s i input
    if r.2 then r.1 else arrive r.1 i input

def noteKey (c : Core μ) (i : Nat) (isKey : Bool) : Core μ :=
  { c with pids := updPid c.pids i fun p => { p with isCurrentAuKey := isKey } }

/-- The head of `tsshaper_enqueue_dts`: the key flag is noted, and `WAIT_IDR` is left where the
    frame allows it.  The flag says whether the function goes on. -/
def noteFrame (s : Tsshaper μ) (i : Nat) (isKey : Bool) : Tsshaper μ × Bool :=
  let c := noteKey s.core i isKey
  if (c.pids i).state = .waitIdr ∧ ¬ isKey ∧ (c.pids i).type = .video then
    ({ s with core := c }, false)
  else ({ s with core := resumeFromWaitIdr c i }, true)

/-- The body of `tsshaper_enqueue_dts`: the DTS anchors the timeline, is ignored while the epoch is
    invalid, or is accepted. -/
def placeDts (s : Tsshaper μ) (i : Nat) (dts : Int) (isKey : Bool) : Tsshaper μ :=
  if anchors s isKey then acceptDts (anchorAt s dts) i dts
  else if s.core.dtsEpochInvalid then s
  else acceptDts s i dts

/-- `tsshaper_enqueue_dts`; its `pid_num` is a stream index. -/
def tsshaperEnqueueDts (s : Tsshaper μ) (pidNum : Nat) (dts : Int) (isKey : Bool) : Tsshaper μ :=
  match tssGetState s.core pidNum with
  | none => s
  | some i =>
    if dts = noptsValue then s
    else
      let r := noteFrame s i isKey
      if r.2 then placeDts r.1 i dts isKey else r.1

/-! ## When a call anchors -/

/-- The call would anchor the timeline at its DTS, as the state BEFORE it stands. -/
def Reanchors (s : Tsshaper μ) (i : Nat) (isKey : Bool) : Prop :=
  s.timeline.firstDts = noptsValue ∨
    (isKey = true ∧ (s.core.dtsEpochInvalid = true ∨ (s.core.pids i).state = .waitIdr))

theorem noteKey_state (c : Core μ) (i : Nat) (isKey : Bool) :
    ((noteKey c i isKey).pids i).state = (c.pids i).state := by
  show (updPid c.pids i _ i).state = _
  unfold updPid
  rw [if_pos rfl]

/-- The end of `WAIT_IDR` invalidates the epoch, and nothing else before the anchor block does. -/
theorem anchors_noteFrame {s : Tsshaper μ} {i : Nat} {isKey : Bool}
    (hgo : (noteFrame s i isKey).2 = true) :
    anchors (noteFrame s i isKey).1 isKey = true ↔ Reanchors s i isKey := by
  have hstate := noteKey_state s.core i isKey
  have hinvalid : (noteKey s.core i isKey).dtsEpochInvalid = s.core.dtsEpochInvalid := rfl
  unfold noteFrame at hgo ⊢
  dsimp only at hgo ⊢
  generalize noteKey s.core i isKey = c at hgo hstate hinvalid
  split at hgo
  · cases hgo
  · rename_i hwait
    rw [if_neg hwait]
    unfold anchors resumeFromWaitIdr Reanchors
    rw [← hstate, ← hinvalid]
    split
    · rename_i hresumes
      simp [hresumes]
    · rename_i hplain
      simp [hplain, and_comm]

/-- The end of `WAIT_IDR` sets the flag, and the head of the function does nothing else to it. -/
theorem noteFrame_valid_iff (s : Tsshaper μ) (i : Nat) (isKey : Bool) :
    (noteFrame s i isKey).1.core.dtsEpochInvalid = false ↔ s.core.dtsEpochInvalid = false ∧
      ((noteFrame s i isKey).2 = true → (s.core.pids i).state ≠ .waitIdr) := by
  have hstate := noteKey_state s.core i isKey
  have hflag : (noteKey s.core i isKey).dtsEpochInvalid = s.core.dtsEpochInvalid := rfl
  unfold noteFrame
  dsimp only
  rw [← hstate, ← hflag]
  generalize noteKey s.core i isKey = c
  split
  · simp
  · unfold resumeFromWaitIdr
    split <;> simp [*]

end TsAnalyzer.Shaper
