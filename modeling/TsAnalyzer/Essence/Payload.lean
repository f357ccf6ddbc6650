/-
  The analysis of a complete PES (`tsa_handle_es_payload`, `tsa_handle_sei` and
  `tsa_tstd_sync_params` in `src/tsa_es.c`): what the NAL units of a PES change in the track.

  * The loop over the PES is a fold over the buffers that `sniffed` hands out.
  * `info` lives on the stack: `tsa_nalu_sniff` leaves it alone when it gets a single byte, so that
    NAL unit is taken for the one before it, the first one for what the stack held.
  * The 64-bit frame counters are integers here, so that a decrement below zero would show.
  * The Lua hook of `tsa_handle_sei` and the log lines are left out; `ts_now_utc_ms` is a parameter.
-/
import TsAnalyzer.Essence.StartCodes
import TsAnalyzer.Lib.Word
import TsAnalyzer.Nalu.Sniffer

namespace TsAnalyzer.Essence

open Lib Packet Nalu List

/-! ## Data -/

/-- `gop_structure[0 .. gop_str_idx)`; the last of its 128 characters is the terminating zero. -/
structure GopString where
  frames : List FrameType
  fits : frames.length ≤ 127
  deriving DecidableEq

/-- One more frame, unless the string is full. -/
def GopString.note (g : GopString) (f : FrameType) : GopString :=
  if hroom : g.frames.length < 127 then
    ⟨g.frames ++ [f], by rw [length_append, length_singleton]; omega⟩
  else g

/-- An IDR takes the place of the last frame. -/
def GopString.mark (g : GopString) : GopString :=
  if hsome : 0 < g.frames.length then
    ⟨g.frames.dropLast ++ [.i], by
      have := g.fits
      rw [length_append, length_dropLast, length_singleton]
      omega⟩
  else g.note .i

/-- `video` of `tsa_es_track_t`, as far as the analysis of a PES writes it. -/
structure Video where
  width : Nat
  height : Nat
  profile : Nat
  level : Nat
  isHighTier : Bool
  chromaFormat : Nat
  bitDepth : Nat
  iFrames : Int
  pFrames : Int
  bFrames : Int
  closedGops : Nat
  openGops : Nat
  isClosedGop : Bool
  hasCea708 : Bool
  lastCcSeenNs : Nat
  gop : GopString
  encoderLatencyMs : Nat
  networkLatencyMs : Nat
  lastSeiUtcMs : Nat
  deriving DecidableEq

/-- `scte35` of `tsa_es_track_t`. -/
structure Scte35 where
  targetPts : Nat
  alignmentErrorNs : Nat
  pendingSplice : Bool
  deriving DecidableEq

/-- What the analysis of a PES changes: fields of the track, and the SCTE35 events pushed. -/
structure EsState where
  video : Video
  scte35 : Scte35
  currentFrameType : FrameType
  leakRateEb : Nat
  leakRateRx : Nat
  splices : List Nat
  deriving DecidableEq

/-- The fields of a new track. -/
def EsState.fresh : EsState where
  video := ⟨0, 0, 0, 0, false, 0, 0, 0, 0, 0, 0, 0, false, false, 0, ⟨[], Nat.zero_le 127⟩, 0, 0, 0⟩
  scte35 := ⟨2 ^ 64 - 1, 0, false⟩
  currentFrameType := .none
  leakRateEb := 0
  leakRateRx := 0
  splices := []

/-- What it reads besides. -/
structure PesEnv where
  streamType : UInt8
  stcNs : Nat
  nowUtcMs : Nat
  lastPts33 : Nat
  deriving DecidableEq

/-! ## SPS -/

/-- `base_br` of `get_h264_max_bitrate_kbps`. -/
def baseBitrateH264 (level : Nat) : Nat :=
  ([(10, 64), (11, 192), (12, 384), (13, 768), (20, 2000), (21, 4000), (22, 4000), (30, 10000),
    (31, 14000), (32, 20000), (40, 20000), (41, 50000), (42, 50000), (50, 135000), (51, 240000),
    (52, 240000)].lookup level).getD 20000

/-- `get_h264_max_bitrate_kbps`; every product with a factor is exact or rounded down. -/
def getH264MaxBitrateKbps (profile level : Nat) : Nat :=
  if profile = 100 then baseBitrateH264 level * 5 / 4
  else if profile = 110 then baseBitrateH264 level * 3
  else if 122 ≤ profile then baseBitrateH264 level * 4
  else baseBitrateH264 level

/-- `base_br` of `get_h265_max_bitrate_kbps`. -/
def baseBitrateH265 (level : Nat) : Nat :=
  ([(30, 128), (60, 1500), (63, 3000), (90, 6000), (93, 10000), (120, 12000), (123, 20000),
    (150, 25000), (153, 40000), (156, 60000), (180, 60000), (183, 120000),
    (186, 240000)].lookup level).getD 20000

def getH265MaxBitrateKbps (isHighTier : Bool) (level : Nat) : Nat :=
  if isHighTier ∧ 150 ≤ level then baseBitrateH265 level * 4
  else if isHighTier ∧ 120 ≤ level then baseBitrateH265 level * 5 / 2
  else baseBitrateH265 level

def tsaTstdSyncParams (streamType : UInt8) (es : EsState) : EsState :=
  let kbps :=
    if tsaIsH264 streamType then getH264MaxBitrateKbps es.video.profile es.video.level
    else if tsaIsHevc streamType then getH265MaxBitrateKbps es.video.isHighTier es.video.level
    else 0
  if 0 < kbps then
    { es with leakRateEb := kbps * 1000 * 12 / 10, leakRateRx := kbps * 1000 * 2 }
  else es

/-- A sequence parameter set. -/
def onSps (env : PesEnv) (info : NaluInfo) (es : EsState) : EsState :=
  tsaTstdSyncParams env.streamType { es with
    video := { es.video with
      profile := info.profile
      level := info.level
      isHighTier := info.isHighTier
      chromaFormat := info.chromaFormat
      bitDepth := if 0 < info.bitDepth then info.bitDepth else es.video.bitDepth
      width := if 0 < info.width then info.width else es.video.width
      height := if 0 < info.height then info.height else es.video.height } }

/-! ## SEI -/

def ltnUuidSeiTimestamp : List UInt8 :=
  [0x59, 0x96, 0xFF, 0x28, 0x17, 0xCA, 0x41, 0x96, 0x8D, 0xE3, 0xE5, 0x3F, 0xE2, 0xF9, 0x92, 0xAE]

/-- `v[i]`: four of the six bytes of a field. -/
def seiWord (p : List UInt8) (i : Nat) : Nat :=
  (p.getD (6 * i) 0).toNat <<< 24 ||| (p.getD (6 * i + 1) 0).toNat <<< 16 |||
    (p.getD (6 * i + 3) 0).toNat <<< 8 ||| (p.getD (6 * i + 4) 0).toNat

/-- `memmem`. -/
def findUuid (payload : List UInt8) : Option Nat :=
  (range (payload.length - 15)).find? fun k =>
    (payload.drop k).take 16 = ltnUuidSeiTimestamp

def tsaHandleSei (nowUtcMs : Nat) (payload : List UInt8) (v : Video) : Video :=
  if payload.length < 64 then v
  else
    match findUuid payload with
    | none => v
    | some k =>
      if payload.length - k < 64 then v
      else
        let p := payload.drop (k + 16)
        let beginMs := seiWord p 4 * 1000 + seiWord p 5 / 1000
        let endMs := seiWord p 6 * 1000 + seiWord p 7 / 1000
        { v with
          encoderLatencyMs := if beginMs ≤ endMs then endMs - beginMs else v.encoderLatencyMs
          networkLatencyMs := if endMs ≤ nowUtcMs then nowUtcMs - endMs else v.networkLatencyMs
          lastSeiUtcMs := endMs }

/-- Supplemental enhancement information. -/
def onSei (env : PesEnv) (info : NaluInfo) (d : List UInt8) (es : EsState) : EsState :=
  let v := tsaHandleSei env.nowUtcMs d es.video
  { es with video :=
      if info.hasCea708 then { v with hasCea708 := true, lastCcSeenNs := env.stcNs } else v }

/-! ## Slices -/

/-- `alignment_error_ns`: `(diff_ticks * 1000000ULL) / 90` in 64 bits. -/
def alignmentError (lastPts33 targetPts : Nat) : Nat :=
  sub64 lastPts33 targetPts * 1000000 % 2 ^ 64 / 90

/-- `abs((int)alignment_error_ns)`. -/
def spliceValue (alignmentErrorNs : Nat) : Nat :=
  if alignmentErrorNs % 2 ^ 32 < 2 ^ 31 then alignmentErrorNs % 2 ^ 32
  else 2 ^ 32 - alignmentErrorNs % 2 ^ 32

/-- The SCTE-35 alignment audit at an IDR. -/
def auditSplice (env : PesEnv) (es : EsState) : EsState :=
  if es.scte35.pendingSplice then
    let error := alignmentError env.lastPts33 es.scte35.targetPts
    { es with
      scte35 := { es.scte35 with alignmentErrorNs := error, pendingSplice := false }
      splices := es.splices ++ [spliceValue error] }
  else es

/-- The picture is an I picture after all: a P or B that was counted for it is taken back. -/
def reclassify (es : EsState) : EsState :=
  if es.currentFrameType = .i then es
  else
    { es with
      video := { es.video with
        pFrames := if es.currentFrameType = .p then es.video.pFrames - 1 else es.video.pFrames
        bFrames := if es.currentFrameType = .b then es.video.bFrames - 1 else es.video.bFrames
        iFrames := es.video.iFrames + 1
        gop := es.video.gop.mark }
      currentFrameType := .i }

/-- A slice of an IDR picture. -/
def onIdr (env : PesEnv) (info : NaluInfo) (es : EsState) : EsState :=
  reclassify (auditSplice env { es with
    video := { es.video with
      isClosedGop := info.isClosedGop
      closedGops := if info.isClosedGop then es.video.closedGops + 1 else es.video.closedGops
      openGops := if info.isClosedGop then es.video.openGops else es.video.openGops + 1 } })

/-- An I slice of another picture: nothing that was counted before is taken back. -/
def onISlice (es : EsState) : EsState :=
  if es.currentFrameType = .i then es
  else { es with video := { es.video with iFrames := es.video.iFrames + 1 }, currentFrameType := .i }

/-- The first slice of another type. -/
def onOtherSlice (info : NaluInfo) (es : EsState) : EsState :=
  let ftype := if info.sliceType = 1 then FrameType.b else .p
  { es with
    video := { es.video with
      bFrames := if ftype = .b then es.video.bFrames + 1 else es.video.bFrames
      pFrames := if ftype = .b then es.video.pFrames else es.video.pFrames + 1
      gop := es.video.gop.note ftype }
    currentFrameType := ftype }

/-! ## The loop -/

/-- The locals of the loop: `frame_counted`, and what `info` holds. -/
structure PesLoop where
  es : EsState
  frameCounted : Bool
  info : NaluInfo
  deriving DecidableEq

/-- A slice that is not of an IDR picture, or no slice at all. -/
def onSlice (info : NaluInfo) (s : PesLoop) : PesLoop :=
  if !info.isSlice then ⟨s.es, s.frameCounted, info⟩
  else if info.sliceType = 2 then ⟨onISlice s.es, s.frameCounted, info⟩
  else if !s.frameCounted then ⟨onOtherSlice info s.es, true, info⟩
  else ⟨s.es, s.frameCounted, info⟩

/-- What a NAL unit changes, by what `info` says about it. -/
def applyNal (env : PesEnv) (d : List UInt8) (info : NaluInfo) (s : PesLoop) : PesLoop :=
  match info.naluTypeAbstract with
  | .sps => ⟨onSps env info s.es, s.frameCounted, info⟩
  | .sei => ⟨onSei env info d s.es, s.frameCounted, info⟩
  | .idr => ⟨onIdr env info s.es, true, info⟩
  | _ => onSlice info s

/-- One buffer: sniffed, and applied. -/
def onNal (env : PesEnv) (s : PesLoop) (d : List UInt8) : PesLoop :=
  applyNal env d ((tsaNaluSniff d (tsaIsHevc env.streamType)).1.getD s.info) s

/-- `tsa_handle_es_payload`; `info` is what the stack holds before the first NAL unit. -/
def tsaHandleEsPayload (env : PesEnv) (info : NaluInfo) (m : Memory) (refs : List PesRef)
    (es : EsState) : EsState :=
  ((sniffed env.streamType m refs).foldl (onNal env) ⟨es, false, info⟩).es

/-- An H.264 track. -/
def h264Env : PesEnv := ⟨0x1b, 0, 0, 0⟩

end TsAnalyzer.Essence
