/-
  Sequence parameter sets as H.264 and H.265 write them: the data, its bits, and the picture it
  announces.

  * `H264Data.code` and `H265Data.code` are the syntax tables of the two standards, element by
    element, up to the last one the sniffer looks at; whatever follows (VUI, extensions, trailing
    bits) is left open.
  * A part that is only coded under a condition is an `Option` or stands behind an `if`; an
    `H264Sps` or `H265Sps` carries the facts that make it a legal one.
  * `escape` is the byte stream's emulation prevention: no three bytes 00 00 0x with x ≤ 3 are
    left in a NAL unit.
-/
import TsAnalyzer.Bitstream.ExpGolomb

namespace TsAnalyzer.Nalu

open Lib Bitstream

/-! ## Syntax elements -/

/-- The values of a ue(v) element. -/
abbrev Ue := Fin (2 ^ 32 - 1)

instance neZero_ue : NeZero (2 ^ 32 - 1) := ⟨by decide⟩

/-- The values of a se(v) element. -/
abbrev Se := { v : Int // -(2 ^ 31 - 1) ≤ v ∧ v ≤ 2 ^ 31 - 1 }

/-- u(n). -/
def uCode {n : Nat} (v : BitVec n) : List Bool := bigEndian n v.toNat

/-- The offsets of a cropping or conformance window, in chroma units. -/
structure CropWindow where
  left : Ue
  right : Ue
  top : Ue
  bottom : Ue

def windowCode : Option CropWindow → List Bool
  | none => []
  | some w => ueCode w.left ++ (ueCode w.right ++ (ueCode w.top ++ ueCode w.bottom))

/-- What a window takes off horizontally and vertically. -/
def windowSums : Option CropWindow → Nat × Nat
  | none => (0, 0)
  | some w => (w.left.val + w.right.val, w.top.val + w.bottom.val)

def subWidthC (chromaFormatIdc : Nat) : Nat :=
  if chromaFormatIdc = 1 ∨ chromaFormatIdc = 2 then 2 else 1

def subHeightC (chromaFormatIdc : Nat) : Nat := if chromaFormatIdc = 1 then 2 else 1

/-- What a parameter set says of its stream. -/
structure SpsFields where
  profile : Nat
  level : Nat
  chromaFormat : Nat
  bitDepth : Nat
  width : Nat
  height : Nat
  deriving DecidableEq

/-! ## H.264 -/

/-- The `delta_scale` elements of a scaling list with `n` entries to come: one for each entry, until
    the next scale becomes 0. -/
def Deltas : Nat → Int → Int → List Int → Prop
  | 0, _, _, deltas => deltas = []
  | n + 1, lastScale, next, deltas =>
    if next = 0 then Deltas n lastScale 0 deltas
    else ∃ delta rest, deltas = delta :: rest ∧ -128 ≤ delta ∧ delta ≤ 127 ∧
      Deltas n (if (lastScale + delta + 256) % 256 = 0 then lastScale
        else (lastScale + delta + 256) % 256) ((lastScale + delta + 256) % 256) rest

/-- The scaling lists of a sequence, by their `delta_scale` elements where they are present. -/
structure ScalingMatrix where
  lists : Nat → Option (List Int)
  coded : ∀ i deltas, lists i = some deltas → Deltas (if i < 6 then 16 else 64) 8 8 deltas

/-- `seq_scaling_list_present_flag`, and the list. -/
def scalingListCode : Option (List Int) → List Bool
  | none => [false]
  | some deltas => [true] ++ deltas.flatMap seCode

def scalingMatrixCode (count : Nat) : Option ScalingMatrix → List Bool
  | none => []
  | some m => (List.range count).flatMap fun i => scalingListCode (m.lists i)

/-- The elements of the profiles with a chroma format. -/
structure ChromaPart where
  chromaFormatIdc : Fin 4
  separateColourPlane : Bool
  bitDepthLumaMinus8 : Fin 7
  bitDepthChromaMinus8 : Fin 7
  qpprimeYZeroTransformBypass : Bool
  scalingMatrix : Option ScalingMatrix

def ChromaPart.code (c : ChromaPart) : List Bool :=
  ueCode c.chromaFormatIdc ++
  ((if c.chromaFormatIdc.val = 3 then [c.separateColourPlane] else []) ++
  (ueCode c.bitDepthLumaMinus8 ++
  (ueCode c.bitDepthChromaMinus8 ++
  ([c.qpprimeYZeroTransformBypass] ++
  ([c.scalingMatrix.isSome] ++
  scalingMatrixCode (if c.chromaFormatIdc.val ≠ 3 then 8 else 12) c.scalingMatrix)))))

def chromaCode : Option ChromaPart → List Bool
  | none => []
  | some c => c.code

def chromaProfiles : List Nat := [100, 110, 122, 244, 44, 83, 86, 118, 128, 138, 139, 134, 135]

/-- `pic_order_cnt_type` 0, 1 and 2, with what follows each. -/
inductive PicOrder where
  | lsb (log2MaxPicOrderCntLsbMinus4 : Ue)
  | cycle (deltaPicOrderAlwaysZero : Bool) (offsetForNonRefPic offsetForTopToBottomField : Se)
    (offsetForRefFrame : List Se) (short : offsetForRefFrame.length < 256)
  | frameNum

def PicOrder.code : PicOrder → List Bool
  | lsb v => ueCode 0 ++ ueCode v
  | cycle alwaysZero nonRef topToBottom offsets _ =>
    ueCode 1 ++ ([alwaysZero] ++ (seCode nonRef ++ (seCode topToBottom ++
      (ueCode offsets.length ++ offsets.flatMap fun v => seCode v))))
  | frameNum => ueCode 2

/-- `seq_parameter_set_data` of H.264, up to the cropping window. -/
structure H264Data where
  nalRefIdc : BitVec 2
  profileIdc : BitVec 8
  constraintFlags : BitVec 8
  levelIdc : BitVec 8
  seqParameterSetId : Ue
  chroma : Option ChromaPart
  log2MaxFrameNumMinus4 : Ue
  picOrder : PicOrder
  maxNumRefFrames : Ue
  gapsInFrameNumAllowed : Bool
  picWidthInMbsMinus1 : Ue
  picHeightInMapUnitsMinus1 : Ue
  frameMbsOnly : Bool
  mbAdaptiveFrameField : Bool
  direct8x8Inference : Bool
  cropping : Option CropWindow

namespace H264Data

/-- From `profile_idc` to `log2_max_frame_num_minus4`. -/
def headCode (s : H264Data) : List Bool :=
  uCode s.profileIdc ++
  (uCode s.constraintFlags ++
  (uCode s.levelIdc ++
  (ueCode s.seqParameterSetId ++
  (chromaCode s.chroma ++
  ueCode s.log2MaxFrameNumMinus4))))

/-- From `max_num_ref_frames` on. -/
def frameCode (s : H264Data) : List Bool :=
  ueCode s.maxNumRefFrames ++
  ([s.gapsInFrameNumAllowed] ++
  (ueCode s.picWidthInMbsMinus1 ++
  (ueCode s.picHeightInMapUnitsMinus1 ++
  ([s.frameMbsOnly] ++
  ((if s.frameMbsOnly = false then [s.mbAdaptiveFrameField] else []) ++
  ([s.direct8x8Inference] ++
  ([s.cropping.isSome] ++
  windowCode s.cropping)))))))

def code (s : H264Data) : List Bool := s.headCode ++ (s.picOrder.code ++ s.frameCode)

/-- 4:2:0 unless it is coded. -/
def chromaFormat (s : H264Data) : Nat := s.chroma.elim 1 fun c => c.chromaFormatIdc.val

/-- 8 bits unless it is coded. -/
def bitDepth (s : H264Data) : Nat := s.chroma.elim 8 fun c => c.bitDepthLumaMinus8.val + 8

def chromaArrayType (s : H264Data) : Nat :=
  s.chroma.elim 1 fun c =>
    if c.chromaFormatIdc.val = 3 ∧ c.separateColourPlane = true then 0 else c.chromaFormatIdc.val

/-- The fields of a frame: 1 for a progressive sequence, else 2. -/
def fieldsPerFrame (s : H264Data) : Nat := 2 - s.frameMbsOnly.toNat

def cropUnitX (s : H264Data) : Nat :=
  if s.chromaArrayType = 0 then 1 else subWidthC s.chromaFormat

def cropUnitY (s : H264Data) : Nat :=
  (if s.chromaArrayType = 0 then 1 else subHeightC s.chromaFormat) * s.fieldsPerFrame

/-- The width in front of the cropping. -/
def fullWidth (s : H264Data) : Nat := (s.picWidthInMbsMinus1.val + 1) * 16

def fullHeight (s : H264Data) : Nat := s.fieldsPerFrame * ((s.picHeightInMapUnitsMinus1.val + 1) * 16)

def fields (s : H264Data) : SpsFields where
  profile := s.profileIdc.toNat
  level := s.levelIdc.toNat
  chromaFormat := s.chromaFormat
  bitDepth := s.bitDepth
  width := s.fullWidth - s.cropUnitX * (windowSums s.cropping).1
  height := s.fullHeight - s.cropUnitY * (windowSums s.cropping).2

def header (s : H264Data) : List UInt8 := [UInt8.ofNat (s.nalRefIdc.toNat * 32 + 7)]

end H264Data

/-- A legal parameter set of H.264 for a picture of less than 65536 samples each way. -/
structure H264Sps extends H264Data where
  chroma_iff : toH264Data.chroma.isSome ↔ toH264Data.profileIdc.toNat ∈ chromaProfiles
  cropsX : toH264Data.cropUnitX * (windowSums toH264Data.cropping).1 < toH264Data.fullWidth
  cropsY : toH264Data.cropUnitY * (windowSums toH264Data.cropping).2 < toH264Data.fullHeight
  width_lt : toH264Data.fields.width < 2 ^ 16
  height_lt : toH264Data.fields.height < 2 ^ 16

/-! ## H.265 -/

structure ProfileTier where
  profileSpace : BitVec 2
  tierFlag : Bool
  profileIdc : BitVec 5
  compatibilityFlags : BitVec 32
  constraintFlags : BitVec 48

def ProfileTier.code (p : ProfileTier) : List Bool :=
  uCode p.profileSpace ++ ([p.tierFlag] ++ (uCode p.profileIdc ++
    (uCode p.compatibilityFlags ++ uCode p.constraintFlags)))

/-- A sub-layer's own profile and level, where they are present. -/
structure SubLayer where
  profile : Option ProfileTier
  level : Option (BitVec 8)

/-- The two presence flags. -/
def SubLayer.flagsCode (l : SubLayer) : List Bool := [l.profile.isSome] ++ [l.level.isSome]

def SubLayer.code (l : SubLayer) : List Bool :=
  l.profile.elim [] ProfileTier.code ++ l.level.elim [] uCode

/-- `seq_parameter_set_rbsp` of H.265 in the base layer, up to the bit depths. -/
structure H265Data where
  vpsId : BitVec 4
  temporalIdNesting : Bool
  general : ProfileTier
  levelIdc : BitVec 8
  /-- `sps_max_sub_layers_minus1` of them. -/
  subLayers : List SubLayer
  seqParameterSetId : Ue
  chromaFormatIdc : Fin 4
  separateColourPlane : Bool
  picWidthInLumaSamples : Ue
  picHeightInLumaSamples : Ue
  conformanceWindow : Option CropWindow
  bitDepthLumaMinus8 : Fin 9
  bitDepthChromaMinus8 : Fin 9

namespace H265Data

/-- The sub-layers of `profile_tier_level`. -/
def subLayersCode (s : H265Data) : List Bool :=
  s.subLayers.flatMap SubLayer.flagsCode ++
  ((if 0 < s.subLayers.length then List.replicate (2 * (8 - s.subLayers.length)) false else []) ++
  s.subLayers.flatMap SubLayer.code)

def code (s : H265Data) : List Bool :=
  uCode s.vpsId ++
  (bigEndian 3 s.subLayers.length ++
  ([s.temporalIdNesting] ++
  (s.general.code ++
  (uCode s.levelIdc ++
  (s.subLayersCode ++
  (ueCode s.seqParameterSetId ++
  (ueCode s.chromaFormatIdc ++
  ((if s.chromaFormatIdc.val = 3 then [s.separateColourPlane] else []) ++
  (ueCode s.picWidthInLumaSamples ++
  (ueCode s.picHeightInLumaSamples ++
  ([s.conformanceWindow.isSome] ++
  (windowCode s.conformanceWindow ++
  (ueCode s.bitDepthLumaMinus8 ++
  ueCode s.bitDepthChromaMinus8)))))))))))))

def fields (s : H265Data) : SpsFields where
  profile := s.general.profileIdc.toNat
  level := s.levelIdc.toNat
  chromaFormat := s.chromaFormatIdc.val
  bitDepth := s.bitDepthLumaMinus8.val + 8
  width := s.picWidthInLumaSamples.val -
    subWidthC s.chromaFormatIdc * (windowSums s.conformanceWindow).1
  height := s.picHeightInLumaSamples.val -
    subHeightC s.chromaFormatIdc * (windowSums s.conformanceWindow).2

/-- `nal_unit_type` 33, layer 0, temporal id 0. -/
def header : List UInt8 := [0x42, 0x01]

end H265Data

/-- A legal parameter set of H.265 for a picture of less than 65536 samples each way. -/
structure H265Sps extends H265Data where
  layers : toH265Data.subLayers.length ≤ 6
  cropsX : subWidthC toH265Data.chromaFormatIdc * (windowSums toH265Data.conformanceWindow).1 <
    toH265Data.picWidthInLumaSamples.val
  cropsY : subHeightC toH265Data.chromaFormatIdc * (windowSums toH265Data.conformanceWindow).2 <
    toH265Data.picHeightInLumaSamples.val
  width_lt : toH265Data.fields.width < 2 ^ 16
  height_lt : toH265Data.fields.height < 2 ^ 16

/-! ## NAL units -/

/-- Emulation prevention, with the zero bytes just written: a 03 in front of each byte up to 3 that
    follows two of them. -/
def escape : Nat → List UInt8 → List UInt8
  | _, [] => []
  | zeros, b :: bytes =>
    if 2 ≤ zeros ∧ b ≤ 3 then 3 :: b :: escape (if b = 0 then 1 else 0) bytes
    else b :: escape (if b = 0 then zeros + 1 else 0) bytes

/-- A parameter set of either standard. -/
inductive Sps where
  | h264 (s : H264Sps)
  | h265 (s : H265Sps)

namespace Sps

def isH265 : Sps → Bool
  | h264 _ => false
  | h265 _ => true

def code : Sps → List Bool
  | h264 s => s.toH264Data.code
  | h265 s => s.toH265Data.code

def fields : Sps → SpsFields
  | h264 s => s.toH264Data.fields
  | h265 s => s.toH265Data.fields

def header : Sps → List UInt8
  | h264 s => s.toH264Data.header
  | h265 _ => H265Data.header

def nalUnit (s : Sps) (rbsp : List UInt8) : List UInt8 := s.header ++ escape 0 rbsp

/-- No byte is inserted in front of the last one the elements reach into. -/
def Undisturbed (s : Sps) (rbsp : List UInt8) : Prop :=
  (escape 0 rbsp).take ((s.code.length + 7) / 8) = rbsp.take ((s.code.length + 7) / 8)
deriving Decidable

end Sps

/-! ## Escaped bytes -/

/-- Bits that come within the first `n` bytes are there in every string with the same `n` bytes. -/
theorem bits_of_take {code : List Bool} {bytes other : List UInt8} {n : Nat}
    (hcode : code <+: bitsOf bytes) (hlen : code.length ≤ 8 * n)
    (hsame : other.take n = bytes.take n) : code <+: bitsOf other := by
  have hfirst : ∀ bytes : List UInt8, bitsOf (bytes.take n) <+: bitsOf bytes := by
    intro bytes
    refine ⟨bitsOf (bytes.drop n), ?_⟩
    rw [← bitsOf_append, List.take_append_drop]
  have hwhole := hcode.length_le
  rw [bitsOf_length] at hwhole
  have hin : code <+: bitsOf (bytes.take n) := by
    apply List.prefix_of_prefix_length_le hcode (hfirst bytes)
    rw [bitsOf_length, List.length_take]
    omega
  rw [← hsame] at hin
  exact hin.trans (hfirst other)

theorem Sps.Undisturbed.code_kept {s : Sps} {rbsp : List UInt8} (hplain : s.Undisturbed rbsp)
    (hcoded : s.code <+: bitsOf rbsp) : s.code <+: bitsOf (escape 0 rbsp) :=
  bits_of_take hcoded (by omega) hplain

end TsAnalyzer.Nalu
