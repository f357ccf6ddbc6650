/-
  The analyzer handle (`struct tsa_handle`), as far as the packet path of `tsa_process_packet` reads
  and writes it.

  The packet path's counters, the alarm fields and one `EsTrack` per PID are spelled out.
  Everything else is the type parameter `ρ`, and what those parts do is a field of `Engines`: it may
  read what the source lets it read and returns the fields it owns.  Every result is proved for
  EVERY `Engines`.
-/
import TsAnalyzer.Alarm.EventRing
import TsAnalyzer.Essence.Track

namespace TsAnalyzer.Pipeline

open Alarm Essence Packet

/-! ## State -/

/-- `struct tsa_handle`. -/
structure Handle (ρ : Type) where
  engineStarted : Bool
  startNs : Nat
  lastPacketRxNs : Nat
  /-- `live->iat_hist`, from under 1 ms to over 100 ms. -/
  iatHist : Fin 6 → Nat
  consecutiveSyncErrors : Nat
  consecutiveGoodSyncs : Nat
  /-- `live->sync_byte_error_count`. -/
  syncByteErrorCount : Nat
  /-- `live->sync_loss.count`. -/
  syncLoss : Nat
  /-- `live->total_ts_packets`. -/
  totalTsPackets : Nat
  pidPacketCount : Nat → Nat
  pidScrambledPackets : Nat → Nat
  pidPesErrors : Nat → Nat
  /-- `live->latched_cc_error`. -/
  latchedCcError : Nat
  alarms : Alarms
  tracks : Nat → EsTrack
  rest : ρ

/-- A handle as `tsa_create` leaves it. -/
def Handle.fresh {ρ : Type} (config : AlertConfig) (rest : ρ) : Handle ρ where
  engineStarted := false
  startNs := 0
  lastPacketRxNs := 0
  iatHist _ := 0
  consecutiveSyncErrors := 0
  consecutiveGoodSyncs := 0
  syncByteErrorCount := 0
  syncLoss := 0
  totalTsPackets := 0
  pidPacketCount _ := 0
  pidScrambledPackets _ := 0
  pidPesErrors _ := 0
  latchedCcError := 0
  alarms := Alarms.fresh config
  tracks _ := EsTrack.fresh
  rest := rest

namespace Handle

variable {ρ : Type}

def setTrack (h : Handle ρ) (pid : Nat) (es : EsTrack) : Handle ρ :=
  { h with tracks := Function.update h.tracks pid es }

def pushEvent (h : Handle ρ) (type : EventType) (pid val : Nat) : Handle ρ :=
  { h with alarms := tsaPushEvent h.alarms type pid val }

/-- `tsa_alert_update(h, id, true, name, pid)`. -/
def raiseAlert (h : Handle ρ) (id : AlertId) (name : String) (pid : Nat) : Handle ρ :=
  { h with alarms :=
      { h.alarms with toAlerts := tsaAlertUpdate h.alarms.toAlerts id true name pid } }

@[simp] theorem setTrack_tracks (h : Handle ρ) (pid : Nat) (es : EsTrack) :
    (h.setTrack pid es).tracks = Function.update h.tracks pid es := rfl

@[simp] theorem setTrack_latched (h : Handle ρ) (pid : Nat) (es : EsTrack) :
    (h.setTrack pid es).latchedCcError = h.latchedCcError := rfl

end Handle

/-! ## The rest of the analyzer -/

/-- What `tsa_handle_es_payload` does: statistics and alarms, the frame type it found, and the leak
    rates of an SPS (`tsa_tstd_sync_params`), `R_x` first. -/
structure Analysis (ρ : Type) where
  rest : ρ
  alarms : Alarms
  frameType : FrameType
  leakRates : Option (Nat × Nat)

/-- The parts of the analyzer that are not opened here. -/
structure Engines (ρ : Type) where
  /-- The remaining first-packet initialisation. -/
  startEngine : ρ → Nat → ρ
  /-- The new `stc_ns`, from the old one and the arrival time: REPLAY step, recovered clock, or the
      arrival time itself. -/
  stcNs : ρ → Nat → Nat → Nat
  /-- What lies on the stack where `tsa_decode_packet_pure` keeps its PES header. -/
  stack : ρ → PesHeader
  /-- `pid_filtering_enabled && !pid_allowed[pid]`. -/
  pidDropped : ρ → Nat → Bool
  /-- `live->pid_is_referenced[pid] && !pid_is_pmt[pid]`. -/
  pesExpected : ρ → Nat → Bool
  /-- PID tracker, histogram, section filter and the plugins in front of the essence plugin. -/
  onPacket : Handle ρ → DecodeResult → (Nat → UInt8) → Nat → ρ × Alarms
  /-- The bitrates that stand in for a PID's missing leak rates. -/
  bitrates : ρ → Nat → Bitrates
  /-- `tsa_audio_audit_process_es`. -/
  audioAudit : ρ → Nat → List UInt8 → ρ
  /-- `tsa_handle_es_payload` on a track whose accumulator reads back as these bytes. -/
  handleEsPayload : ρ → Alarms → Nat → EsTrack → List UInt8 → Analysis ρ
  /-- Frame size statistics of a finished PES. -/
  recordFrame : ρ → Nat → FrameType → Nat → ρ
  /-- PTS jitter statistics: PID, PTS, STC. -/
  recordPts : ρ → Nat → Nat → Nat → ρ
  /-- Entropy statistics of a video payload. -/
  recordEntropy : ρ → Alarms → Nat → List UInt8 → ρ × Alarms
  /-- A pending snapshot, and whatever Lua handlers changed. -/
  settle : ρ → Alarms → ρ × Alarms

/-- Parts that do nothing, behind a clock that shows the arrival time. -/
def Engines.idle : Engines Unit where
  startEngine _ _ := ()
  stcNs _ _ n := n
  stack _ := ⟨0, false, false, 0, 0, 0⟩
  pidDropped _ _ := false
  pesExpected _ _ := false
  onPacket h _ _ _ := ((), h.alarms)
  bitrates _ _ := ⟨0, 0, 0⟩
  audioAudit _ _ _ := ()
  handleEsPayload _ alarms _ _ _ := ⟨(), alarms, .none, none⟩
  recordFrame _ _ _ _ := ()
  recordPts _ _ _ _ := ()
  recordEntropy _ alarms _ _ := ((), alarms)
  settle _ alarms := ((), alarms)

end TsAnalyzer.Pipeline
