/-
  The essence plugin's work on ONE elementary-stream track.

  `essence_on_ts` (`src/tsa_engine_essence.c`) and the accumulator behind it
  (`tsa_es_track_push_packet`, `src/tsa_es.c`) change the track of the packet's PID and nothing
  else of the tracks.  `EsTrack.onTs` is that change as a function of the track, stage by stage in
  the order of the source; what the stages read of the handle is collected in `TrackEnv`.
-/
import TsAnalyzer.Essence.Accumulator
import TsAnalyzer.Essence.Tstd
import TsAnalyzer.Packet.Decode

namespace TsAnalyzer.Essence

open Lib Packet

/-- `tsa_es_track_t`, less its statistics. -/
structure EsTrack where
  streamType : UInt8
  pes : PesAccumulator
  unroll : PtsUnroll
  auQ : AuQueue
  tstd : Tstd

/-- What the stages read of the handle. -/
structure TrackEnv where
  /-- `stc_ns` when the packet is filled in, and when the queue is drained. -/
  stcNs : Nat
  drainStcNs : Nat
  bitrates : Bitrates
  /-- `live->latched_cc_error != 0`. -/
  latched : Bool
  /-- The leak rates an SPS of the finished PES sets, `R_x` first. -/
  leakRates : Option (Nat × Nat)

namespace EsTrack

/-- A track as `tsa_create` leaves it. -/
def fresh : EsTrack where
  streamType := 0
  pes := ⟨[], 0, 0, 0, false, false, .none⟩
  unroll := ⟨noPts, 0⟩
  auQ := AuQueue.fresh
  tstd := ⟨0, 0, 0, 0, 0, 0, 0, 0, 0⟩

/-- A discontinuity empties the buffers, the queue and the accumulator. -/
def reset (es : EsTrack) : EsTrack :=
  { es with
    pes := { es.pes.clear.1 with lastDts33 := 0 }
    auQ := es.auQ.reset
    tstd := { es.tstd with tbFill := 0, mbFill := 0, ebFill := 0, lastUnderflowDts := 0 } }

/-- The buffers once they have leaked up to `stcNs`, with the values of the predictive events. -/
def leak (b : Bitrates) (stcNs : Nat) (es : EsTrack) : Tstd × List Nat :=
  tsaTstdUpdateLeak es.streamType b es.auQ stcNs es.tstd

/-- TB once it has taken in the packet. -/
def tbFilled (b : Bitrates) (stcNs : Nat) (es : EsTrack) : Int :=
  wrap128 ((es.leak b stcNs).1.tbFill + toQ64 (188 * 8))

/-- The next access unit should have been decoded before now, and this was not reported yet. -/
def Late (stcNs : Nat) (es : EsTrack) : Prop :=
  es.auQ.head ≠ es.auQ.tail ∧ (es.auQ.queue es.auQ.head).dtsNs < stcNs ∧
    es.tstd.lastUnderflowDts ≠ (es.auQ.queue es.auQ.head).dtsNs
deriving Decidable

/-- The T-STD stages in front of the accumulator: leak, TB fill, late-data check. -/
def fill (b : Bitrates) (stcNs : Nat) (es : EsTrack) : EsTrack :=
  let t := { (es.leak b stcNs).1 with tbFill := es.tbFilled b stcNs }
  let dts := (es.auQ.queue es.auQ.head).dtsNs
  { es with tstd := if es.Late stcNs then { t with lastUnderflowDts := dts } else t }

/-- A unit start finishes the PES under construction: its analysis may set the leak rates, its
    access unit is queued under the pending decoding time, and its packets are dropped. -/
def finish (leakRates : Option (Nat × Nat)) (es : EsTrack) : EsTrack :=
  if es.pes.refs = [] then es
  else
    { es with
      pes := es.pes.clear.1
      auQ := if 0 < es.pes.pendingDtsNs then
        es.auQ.push ⟨es.pes.pendingDtsNs, es.pes.totalLength * 8 % 2 ^ 32⟩ else es.auQ
      tstd := match leakRates with
        | some (rx, eb) => { es.tstd with leakRateRx := rx, leakRateEb := eb }
        | none => es.tstd }

/-- The decoding time of a PES header in ticks, extrapolated at 25 frames a second where there is
    none (`exact_fps` is never set). -/
def dtsTicks (res : DecodeResult) (es : EsTrack) : Nat :=
  let ticks := if res.hasDts then res.dts else if res.hasPts then res.pts else 0
  if ticks = 0 ∧ 0 < es.pes.lastDts33 then (es.pes.lastDts33 + 3600) % 2 ^ 64 else ticks

/-- The time stamps of a PES header: the pending decoding time, and `last_pts_33`. -/
def stamp (res : DecodeResult) (es : EsTrack) : EsTrack :=
  if res.hasPesHeader then
    let ticks := es.dtsTicks res
    let pes := if 0 < ticks then
      { es.pes with pendingDtsNs := ticks * 1000000 % 2 ^ 64 / 90, lastDts33 := ticks } else es.pes
    { es with
      pes := { pes with hasPts := res.hasPts, hasDts := res.hasDts }
      unroll := { es.unroll with lastPts33 := res.pts } }
  else es

def append (pkt : PacketPtr) (res : DecodeResult) (es : EsTrack) : EsTrack :=
  { es with pes := (es.pes.append pkt res.afLen res.payloadLen).1 }

def push (leakRates : Option (Nat × Nat)) (pkt : PacketPtr) (res : DecodeResult) (es : EsTrack) :
    EsTrack :=
  if !res.pusi ∧ (!res.hasPayload ∨ res.payloadLen = 0) then es
  else if res.pusi then ((es.finish leakRates).stamp res).append pkt res
  else es.append pkt res

/-- `tsa_tstd_drain`. -/
def drain (stcNs : Nat) (es : EsTrack) : EsTrack :=
  { es with auQ := (tsaTstdDrain stcNs es.auQ es.tstd).1
            tstd := (tsaTstdDrain stcNs es.auQ es.tstd).2 }

def onTs (env : TrackEnv) (pkt : PacketPtr) (res : DecodeResult) (es : EsTrack) : EsTrack :=
  if res.hasDiscontinuity ∨ env.latched then es.reset
  else
    let es := es.fill env.bitrates env.stcNs
    let es := if 0 < res.payloadLen then es.push env.leakRates pkt res else es
    es.drain env.drainStcNs

/-! `onTs`, case by case. -/

variable {env : TrackEnv} {res : DecodeResult} (stc : Nat) (rates : Option (Nat × Nat))
  (es : EsTrack)

theorem onTs_of_reset (hreset : res.hasDiscontinuity ∨ env.latched) (pkt : PacketPtr)
    (es : EsTrack) : es.onTs env pkt res = es.reset := by
  rw [onTs, if_pos hreset]

theorem onTs_of_no_payload (hreset : ¬ (res.hasDiscontinuity ∨ env.latched))
    (hpay : res.payloadLen = 0) (pkt : PacketPtr) (es : EsTrack) :
    es.onTs env pkt res = (es.fill env.bitrates env.stcNs).drain env.drainStcNs := by
  rw [onTs, if_neg hreset]
  simp only [hpay, Nat.lt_irrefl, if_false]

theorem onTs_of_payload (hreset : ¬ (res.hasDiscontinuity ∨ env.latched))
    (hpay : 0 < res.payloadLen) (pkt : PacketPtr) (es : EsTrack) :
    es.onTs env pkt res =
      ((es.fill env.bitrates env.stcNs).push env.leakRates pkt res).drain env.drainStcNs := by
  rw [onTs, if_neg hreset]
  simp only [if_pos hpay]

/-! ## What a stage leaves alone -/

@[simp] theorem fill_pes (b : Bitrates) (stc : Nat) (es : EsTrack) :
    (es.fill b stc).pes = es.pes := rfl

@[simp] theorem fill_unroll (b : Bitrates) (stc : Nat) (es : EsTrack) :
    (es.fill b stc).unroll = es.unroll := rfl

@[simp] theorem drain_pes : (es.drain stc).pes = es.pes := rfl

@[simp] theorem drain_unroll : (es.drain stc).unroll = es.unroll := rfl

theorem finish_streamType : (es.finish rates).streamType = es.streamType := by
  unfold finish
  split <;> rfl

theorem stamp_streamType (res : DecodeResult) (es : EsTrack) :
    (es.stamp res).streamType = es.streamType := by
  unfold stamp
  split <;> rfl

theorem onTs_streamType (env : TrackEnv) (res : DecodeResult) (pkt : PacketPtr) (es : EsTrack) :
    (es.onTs env pkt res).streamType = es.streamType := by
  by_cases hreset : res.hasDiscontinuity ∨ env.latched
  · rw [onTs_of_reset hreset]
    rfl
  rcases Nat.eq_zero_or_pos res.payloadLen with hpay | hpay
  · rw [onTs_of_no_payload hreset hpay]
    rfl
  rw [onTs_of_payload hreset hpay]
  show ((es.fill env.bitrates env.stcNs).push env.leakRates pkt res).streamType = es.streamType
  rw [push]
  split
  · rfl
  · split
    · show (((es.fill _ _).finish _).stamp res).streamType = es.streamType
      rw [stamp_streamType, finish_streamType]
      rfl
    · rfl

theorem finish_unroll : (es.finish rates).unroll = es.unroll := by
  unfold finish
  split <;> rfl

theorem finish_refs : (es.finish rates).pes.refs = [] := by
  unfold finish
  split
  · rename_i h; exact h
  · rfl

theorem stamp_refs (res : DecodeResult) (es : EsTrack) : (es.stamp res).pes.refs = es.pes.refs := by
  unfold stamp
  split
  · show (if _ then _ else _ : PesAccumulator).refs = es.pes.refs
    split <;> rfl
  · rfl

theorem onTs_refs (hreset : ¬ (res.hasDiscontinuity ∨ env.latched))
    (hhas : 0 < res.payloadLen → res.hasPayload = true) (pkt : PacketPtr) (es : EsTrack) :
    (es.onTs env pkt res).pes.refs =
      if res.payloadLen = 0 then es.pes.refs
      else if res.pusi then [⟨pkt, 4 + res.afLen, res.payloadLen % 256⟩]
      else if es.pes.refs.length < pesMaxRefs then
        es.pes.refs ++ [⟨pkt, 4 + res.afLen, res.payloadLen % 256⟩]
      else es.pes.refs := by
  rcases Nat.eq_zero_or_pos res.payloadLen with hpay | hpay
  · rw [onTs_of_no_payload hreset hpay, if_pos hpay]
    rfl
  rw [onTs_of_payload hreset hpay, if_neg (Nat.ne_of_gt hpay), drain_pes]
  have hskip : ¬ (!res.pusi ∧ (!res.hasPayload ∨ res.payloadLen = 0)) := by
    rintro ⟨-, h' | h'⟩
    · rw [hhas hpay] at h'; cases h'
    · omega
  rw [push, if_neg hskip]
  by_cases hpusi : res.pusi
  · rw [if_pos hpusi, if_pos hpusi, append, PesAccumulator.append, stamp_refs, finish_refs,
      if_pos (by decide)]
    rfl
  · rw [if_neg hpusi, if_neg hpusi, append, PesAccumulator.append, fill_pes]
    split <;> rfl

theorem stamp_unroll (res : DecodeResult) (es : EsTrack) :
    (es.stamp res).unroll =
      if res.hasPesHeader then { es.unroll with lastPts33 := res.pts } else es.unroll := by
  unfold stamp
  split <;> rfl

/-- What the plugin leaves in the unroll state: a PES header overwrites `last_pts_33`. -/
theorem onTs_unroll (env : TrackEnv) (res : DecodeResult) (pkt : PacketPtr) (es : EsTrack) :
    (es.onTs env pkt res).unroll =
      if ¬ (res.hasDiscontinuity ∨ env.latched) ∧ 0 < res.payloadLen ∧ res.pusi ∧ res.hasPesHeader
      then { es.unroll with lastPts33 := res.pts } else es.unroll := by
  by_cases hreset : res.hasDiscontinuity ∨ env.latched
  · rw [onTs_of_reset hreset, if_neg (fun h => h.1 hreset)]
    rfl
  rcases Nat.eq_zero_or_pos res.payloadLen with hpay | hpay
  · rw [onTs_of_no_payload hreset hpay, if_neg (by rintro ⟨-, h, -⟩; omega)]
    rfl
  rw [onTs_of_payload hreset hpay, drain_unroll, push]
  by_cases hpusi : res.pusi
  · rw [if_neg (by simp [hpusi]), if_pos hpusi]
    show (((es.fill _ _).finish _).stamp res).unroll = _
    rw [stamp_unroll, finish_unroll, fill_unroll]
    by_cases hheader : res.hasPesHeader
    · rw [if_pos hheader, if_pos ⟨hreset, hpay, hpusi, hheader⟩]
    · rw [if_neg hheader, if_neg (fun h => hheader h.2.2.2)]
  · have hkeep : ¬ (¬ (res.hasDiscontinuity ∨ env.latched) ∧ 0 < res.payloadLen ∧ res.pusi ∧
        res.hasPesHeader) := fun h => hpusi h.2.2.1
    rw [if_neg hkeep, if_neg hpusi]
    split
    · rfl
    · rfl

end EsTrack

end TsAnalyzer.Essence
