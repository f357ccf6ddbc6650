/-
  `tsa_process_packet` (`src/tsa.c`) and the essence plugin (`src/tsa_engine_essence.c`).

  One packet takes three steps:

  1. `intake`      — sync accounting, clock, decoding, PID filter, the other plugins;
  2. `essenceOnTs` — the essence plugin: T-STD leak, PES accumulator, T-STD drain;
  3. `settle`      — a pending snapshot.

  Besides the handle and memory, an `Outcome` records what happened on the way: the reference-count
  operations in the order they were made, and the bytes handed to `tsa_handle_es_payload`.
-/
import TsAnalyzer.Pipeline.Handle

namespace TsAnalyzer.Pipeline

open Lib Alarm Essence Packet

variable {ρ : Type}

/-! ## Intake -/

/-- The bucket of `iat_hist` for an inter-arrival time. -/
def iatBucket (deltaNs : Nat) : Fin 6 :=
  if deltaNs < 1000000 then 0 else if deltaNs < 2000000 then 1 else if deltaNs < 5000000 then 2
  else if deltaNs < 10000000 then 3 else if deltaNs < 100000000 then 4 else 5

/-- First-packet initialisation and arrival statistics. -/
def arrive (E : Engines ρ) (h : Handle ρ) (n : Nat) : Handle ρ :=
  let h := if h.engineStarted then h else
    { h with engineStarted := true, startNs := n, lastPacketRxNs := n
             alarms := { h.alarms with stcNs := n }, rest := E.startEngine h.rest n }
  let bucket := iatBucket (n - h.lastPacketRxNs)
  let h := if h.lastPacketRxNs ≠ 0 ∧ h.lastPacketRxNs < n then
    { h with iatHist := Function.update h.iatHist bucket (h.iatHist bucket + 1) } else h
  { h with lastPacketRxNs := n }

/-- A packet without a sync byte: the fifth in a row is a sync loss. -/
def syncError (h : Handle ρ) : Handle ρ :=
  let errors := (h.consecutiveSyncErrors + 1) % 2 ^ 32
  let h := { h with consecutiveSyncErrors := errors, consecutiveGoodSyncs := 0
                    syncByteErrorCount := (h.syncByteErrorCount + 1) % 2 ^ 64 }
  if 5 ≤ errors ∧ h.alarms.signalLock then
    Handle.pushEvent { h with syncLoss := (h.syncLoss + 1) % 2 ^ 64
                              alarms := { h.alarms with signalLock := false } } .syncLoss 0 0
  else h

/-- A packet with a sync byte: the fifth in a row locks the signal. -/
def syncGood (h : Handle ρ) : Handle ρ :=
  let good := (h.consecutiveGoodSyncs + 1) % 2 ^ 32
  { h with consecutiveGoodSyncs := good, consecutiveSyncErrors := 0
           alarms := { h.alarms with signalLock := h.alarms.signalLock || 5 ≤ good } }

/-- The system time clock moves on. -/
def tick (E : Engines ρ) (h : Handle ρ) (n : Nat) : Handle ρ :=
  { h with alarms := { h.alarms with stcNs := E.stcNs h.rest h.alarms.stcNs n } }

/-- `f[i]++` on a table of 64-bit counters. -/
def bump (f : Nat → Nat) (i : Nat) : Nat → Nat := Function.update f i ((f i + 1) % 2 ^ 64)

/-- The PES_ERROR event of a unit start without start code, on a PID that should carry PES. -/
def reportPes (E : Engines ρ) (h : Handle ρ) (p : Nat → UInt8) : Handle ρ :=
  let pid := pidOf p
  if pesStartMissing p ∧ E.pesExpected h.rest pid ∧ 0x1F < pid then
    Handle.pushEvent { h with pidPesErrors := bump h.pidPesErrors pid } .pesError pid 0 else h

/-- `tsa_decode_packet` on the handle: the PID's unroll state moves on. -/
def decode (E : Engines ρ) (h : Handle ρ) (p : Nat → UInt8) : Handle ρ × DecodeResult :=
  let h1 := reportPes E h p
  let es := h1.tracks (pidOf p)
  let r := tsaDecodePacket p (E.stack h.rest) es.unroll
  (h1.setTrack (pidOf p) { es with unroll := r.2 }, r.1)

/-- Packet counters, the SCRAMBLED events (there are two) and the other plugins. -/
def observe (E : Engines ρ) (h : Handle ρ) (res : DecodeResult) (p : Nat → UInt8) (n : Nat) :
    Handle ρ :=
  let pid := res.pid
  let h := { h with pidPacketCount := bump h.pidPacketCount pid }
  let h := if res.scrambled then
    let h := h.pushEvent .scrambled pid 0
    Handle.pushEvent { h with pidScrambledPackets := bump h.pidScrambledPackets pid }
      .scrambled pid 0
    else h
  let r := E.onPacket h res p n
  { h with rest := r.1, alarms := r.2 }

/-- `live->total_ts_packets++`. -/
def countPacket (h : Handle ρ) : Handle ρ :=
  { h with totalTsPackets := (h.totalTsPackets + 1) % 2 ^ 64 }

/-- What becomes of a packet before the essence plugin. -/
inductive Intake (ρ : Type) where
  /-- No sync byte. -/
  | noSync (h : Handle ρ)
  /-- Dropped by the PID filter. -/
  | filtered (h : Handle ρ) (res : DecodeResult)
  | accepted (h : Handle ρ) (res : DecodeResult)

/-- `tsa_process_packet` up to the essence plugin. -/
def intake (E : Engines ρ) (h : Handle ρ) (p : Nat → UInt8) (n : Nat) : Intake ρ :=
  let h := arrive E h n
  if p 0 ≠ 0x47 then .noSync (syncError h)
  else
    let (h, res) := decode E (tick E (syncGood h) n) p
    let h := countPacket h
    if E.pidDropped h.rest res.pid then .filtered h res
    else .accepted (observe E h res p n) res

/-! ## The essence plugin -/

/-- What the essence plugin leaves: handle and memory, the reference-count operations in the order
    they were made, and the bytes `tsa_handle_es_payload` was called on. -/
structure Outcome (ρ : Type) where
  handle : Handle ρ
  mem : Memory
  ops : List RefOp
  analysed : Option (List UInt8)

/-- Carry out reference-count operations. -/
def runOps (h : Handle ρ) (m : Memory) (ops : List RefOp) : Handle ρ × Memory :=
  let errors := ops.foldl (fun e op => op.onSyncErrors e) h.consecutiveSyncErrors
  let caller := ops.foldl (fun m op => op.onCaller m) m.caller
  ({ h with consecutiveSyncErrors := errors }, { m with caller := caller })

/-- A stage of the plugin: a new track for the PID, then its reference-count operations. -/
def stage (h : Handle ρ) (m : Memory) (pid : Nat) (es : EsTrack) (ops : List RefOp) : Outcome ρ :=
  let r := runOps (h.setTrack pid es) m ops
  ⟨r.1, r.2, ops, none⟩

/-- Finish the PES under construction: analyse it, and drop its packets. -/
def finishPes (E : Engines ρ) (h : Handle ρ) (m : Memory) (pid : Nat) : Outcome ρ :=
  let es := h.tracks pid
  if es.pes.refs = [] then ⟨h, m, [], none⟩
  else
    let bytes := pesBytes m es.pes.refs
    let a := E.handleEsPayload h.rest h.alarms pid es bytes
    let rest := E.recordFrame a.rest pid a.frameType es.pes.totalLength
    let o := stage { h with alarms := a.alarms, rest := rest } m pid (es.finish a.leakRates)
      es.pes.clear.2
    { o with analysed := some bytes }

/-- The time stamps of a PES header, and their jitter statistics. -/
def stampPes (E : Engines ρ) (h : Handle ρ) (pid : Nat) (res : DecodeResult) : Handle ρ :=
  let es := h.tracks pid
  let h := if res.hasPesHeader ∧ res.hasPts then
    { h with rest := E.recordPts h.rest pid res.pts h.alarms.stcNs } else h
  h.setTrack pid (es.stamp res)

/-- Append the current packet, and its entropy statistics. -/
def appendPacket (E : Engines ρ) (h : Handle ρ) (m : Memory) (pid : Nat) (pkt : PacketPtr)
    (res : DecodeResult) : Outcome ρ :=
  let es := h.tracks pid
  let ops := (es.pes.append pkt res.afLen res.payloadLen).2
  let o := stage h m pid (es.append pkt res) ops
  if ops ≠ [] ∧ tsaIsVideo es.streamType ∧ 0 < res.payloadLen then
    let payload := (List.range res.payloadLen).map fun k => o.mem.byte pkt (4 + res.afLen + k)
    let s := E.recordEntropy o.handle.rest o.handle.alarms pid payload
    { o with handle := { o.handle with rest := s.1, alarms := s.2 } }
  else o

def tsaEsTrackPushPacket (E : Engines ρ) (h : Handle ρ) (m : Memory) (pid : Nat) (pkt : PacketPtr)
    (res : DecodeResult) : Outcome ρ :=
  if !res.pusi ∧ (!res.hasPayload ∨ res.payloadLen = 0) then ⟨h, m, [], none⟩
  else if res.pusi then
    let a := finishPes E h m pid
    let b := appendPacket E (stampPes E a.handle pid res) a.mem pid pkt res
    ⟨b.handle, b.mem, a.ops ++ b.ops, a.analysed⟩
  else appendPacket E h m pid pkt res

def tsaIsAudio (streamType : UInt8) : Bool :=
  streamType ∈ [0x03, 0x04, 0x0f, 0x11, 0x81, 0x82]

/-- The alarms of the T-STD leak and of the transport buffer overflow. -/
def reportFill (E : Engines ρ) (h : Handle ρ) (pid : Nat) : Handle ρ :=
  let es := h.tracks pid
  let b := E.bitrates h.rest pid
  let stc := h.alarms.stcNs
  let h := (es.leak b stc).2.foldl (fun h v => h.pushEvent .tstdPredictive pid v) h
  if toQ64 (512 * 8) < es.tbFilled b stc then
    (h.pushEvent .tstdOverflow pid (wholeBits (es.tbFilled b stc))).raiseAlert .tstd "TSTD" pid
  else h

def auditAudio (E : Engines ρ) (h : Handle ρ) (pid : Nat) (res : DecodeResult)
    (p : Nat → UInt8) : Handle ρ :=
  let payload := (List.range res.payloadLen).map fun k => p (4 + res.afLen + k)
  if tsaIsAudio (h.tracks pid).streamType then
    { h with rest := E.audioAudit h.rest pid payload } else h

/-- The alarm of late data: the next access unit should have been decoded before `stc`. -/
def reportLate (h : Handle ρ) (pid stc : Nat) : Handle ρ :=
  let es := h.tracks pid
  let lateBy := stc - (es.auQ.queue es.auQ.head).dtsNs
  if es.Late stc then (h.pushEvent .tstdUnderflow pid lateBy).raiseAlert .tstd "TSTD" pid else h

/-- The T-STD stages in front of the accumulator, with their alarms and the audio audit. -/
def essenceFill (E : Engines ρ) (h : Handle ρ) (pid : Nat) (res : DecodeResult)
    (p : Nat → UInt8) : Handle ρ :=
  let es := h.tracks pid
  let b := E.bitrates h.rest pid
  let stc := h.alarms.stcNs
  (reportLate (auditAudio E (reportFill E h pid) pid res p) pid stc).setTrack pid (es.fill b stc)

def essenceOnTs (E : Engines ρ) (h : Handle ρ) (m : Memory) (pkt : PacketPtr)
    (res : DecodeResult) : Outcome ρ :=
  let pid := res.pid
  if pid = 0x1FFF then ⟨h, m, [], none⟩
  else if res.hasDiscontinuity ∨ h.latchedCcError ≠ 0 then
    stage h m pid (h.tracks pid).reset (h.tracks pid).pes.clear.2
  else
    let h := essenceFill E h pid res (m.byte pkt)
    let o := if 0 < res.payloadLen then tsaEsTrackPushPacket E h m pid pkt res else ⟨h, m, [], none⟩
    let es := (o.handle.tracks pid).drain o.handle.alarms.stcNs
    { o with handle := o.handle.setTrack pid es }

/-! ## One packet -/

/-- A pending snapshot, and what Lua handlers changed. -/
def Handle.settle (E : Engines ρ) (h : Handle ρ) : Handle ρ :=
  { h with rest := (E.settle h.rest h.alarms).1, alarms := (E.settle h.rest h.alarms).2 }

def tsaProcessPacket (E : Engines ρ) (h : Handle ρ) (m : Memory) (pkt : PacketPtr) (n : Nat) :
    Outcome ρ :=
  match intake E h (m.byte pkt) n with
  | .noSync h => ⟨h, m, [], none⟩
  | .filtered h _ => ⟨h, m, [], none⟩
  | .accepted h res =>
    let o := essenceOnTs E h m pkt res
    { o with handle := o.handle.settle E }

end TsAnalyzer.Pipeline
