/-
  The NAL unit sniffer (`src/nalu_sniffer.c`): NAL type, slice type, and the fields of a sequence
  parameter set, for H.264 and H.265.

  * A `br_read` whose value the source drops is a `skipBits` or `skipUe`.
  * The fields of `tsa_nalu_info_t` are unsigned: `width` and `height` are reduced modulo 2^16, the
    others modulo 2^8.  A sum of two `int` wraps.
  * Besides the fields, `tsaNaluSniff` returns the operations of the bit reader.
-/
import TsAnalyzer.Bitstream.Reader

namespace TsAnalyzer.Nalu

open Lib Bitstream

inductive NaluType where
  | unknown | sps | pps | idr | nonIdr | sei
  deriving DecidableEq

structure NaluInfo where
  naluTypeRaw : Nat
  naluTypeAbstract : NaluType
  isH265 : Bool
  width : Nat
  height : Nat
  profile : Nat
  level : Nat
  isHighTier : Bool
  chromaFormat : Nat
  bitDepth : Nat
  hasCea708 : Bool
  isSlice : Bool
  sliceType : Int
  isClosedGop : Bool
  deriving DecidableEq

/-- The fields before a NAL unit is looked at. -/
def NaluInfo.blank (isH265 : Bool) (naluTypeRaw : Nat) : NaluInfo where
  naluTypeRaw := naluTypeRaw
  naluTypeAbstract := .unknown
  isH265 := isH265
  width := 0
  height := 0
  profile := 0
  level := 0
  isHighTier := false
  chromaFormat := 0
  bitDepth := 0
  hasCea708 := false
  isSlice := false
  sliceType := -1
  isClosedGop := false

/-- `br_read`, its value dropped. -/
def skipBits (n : Nat) : Read Unit := do
  let _ ← brRead n
  return ()

/-- `br_read_ue`, its value dropped. -/
def skipUe : Read Unit := do
  let _ ← brReadUe
  return ()

/-- `br_read_se`, its value dropped. -/
def skipSe : Read Unit := do
  let _ ← brReadSe
  return ()

/-- What is read from a new reader over `buf`, and the operations. -/
def readFrom (buf : List UInt8) (m : Read NaluInfo) : NaluInfo × Nat :=
  let r := m (brInit buf)
  (r.1, r.2.ops)

/-- `x - d` in a `uint16_t`. -/
def sub16 (x d : Nat) : Nat := (x + (2 ^ 32 - d % 2 ^ 32)) % 2 ^ 16

/-! ## H.264 -/

/-- The profiles with a chroma format. -/
def highProfiles : List Nat := [100, 110, 122, 244, 44, 83, 86, 118, 128, 138, 139, 134]

/-- `next_scale`, from the last one.  The remainder has the sign of the sum. -/
def addDelta (lastScale : Int) : Read Int := do
  let deltaScale ← brReadSe
  return ((lastScale + deltaScale + 256).bmod (2 ^ 32)).tmod 256

/-- `next_scale` after a round: a 0 stays. -/
def nextScale (lastScale next : Int) : Read Int :=
  if next ≠ 0 then addDelta lastScale else pure next

/-- The scaling list loop, over the entries to come. -/
def scalingList : Nat → Int → Int → Read Unit
  | 0, _, _ => pure ()
  | n + 1, lastScale, next => do
    let next' ← nextScale lastScale next
    scalingList n (if next' = 0 then lastScale else next') next'

/-- One round of the loop over the scaling lists. -/
def scalingListAt (i : Nat) : Read Unit := do
  let present ← brRead 1
  onlyIf (present ≠ 0) (scalingList (if i < 6 then 16 else 64) 8 8)

def scalingLists : List Nat → Read Unit
  | [] => pure ()
  | i :: is => do
    scalingListAt i
    scalingLists is

/-- `chroma_format` and `bit_depth` of a high profile. -/
def highChroma : Read (Nat × Nat) := do
  let chroma ← brReadUe
  onlyIf (chroma % 2 ^ 8 = 3) (skipBits 1)
  let depth ← brReadUe
  skipUe
  skipBits 1
  let matrix ← brRead 1
  onlyIf (matrix ≠ 0) (scalingLists (List.range (if chroma % 2 ^ 8 ≠ 3 then 8 else 12)))
  return (chroma % 2 ^ 8, (depth + 8) % 2 ^ 8)

/-- `chroma_format` and `bit_depth`: the other profiles have 4:2:0 and leave `bit_depth` alone. -/
def h264Chroma (out : NaluInfo) : Read (Nat × Nat) :=
  if out.profile ∈ highProfiles then highChroma else pure (1, out.bitDepth)

/-- The loop over `num_ref_frames_in_pic_order_cnt_cycle` offsets. -/
def refFrameOffsets : Nat → Read Unit
  | 0 => pure ()
  | n + 1 => do
    skipSe
    refFrameOffsets n

/-- `num_ref_frames_in_pic_order_cnt_cycle`, and what stands before it. -/
def cycleLength : Read Nat := do
  skipBits 1
  skipSe
  skipSe
  brReadUe

/-- `pic_order_cnt_type` 1. -/
def picOrderCycle : Read Unit := do
  let num ← cycleLength
  refFrameOffsets num

def picOrderCnt : Read Unit := do
  let type ← brReadUe
  if type = 0 then skipUe else if type = 1 then picOrderCycle else pure ()

/-- The sums of the offsets of a cropping window, left and right, top and bottom: 0 without a
    window. -/
def window (present : Nat) : Read (Nat × Nat) :=
  if present ≠ 0 then do
    let left ← brReadUe
    let right ← brReadUe
    let top ← brReadUe
    let bottom ← brReadUe
    return (left + right, top + bottom)
  else pure (0, 0)

def cropUnits (chroma frameMbsOnly : Nat) : Nat × Nat :=
  if chroma = 1 then (2, if frameMbsOnly ≠ 0 then 2 else 4)
  else if chroma = 2 then (2, if frameMbsOnly ≠ 0 then 1 else 2)
  else (1, 1)

/-- The reads of `sniff_h264_sps` up to `pic_order_cnt_type`. -/
def h264Head (out : NaluInfo) : Read NaluInfo := do
  skipBits 8
  let profile ← brRead 8
  skipBits 8
  let level ← brRead 8
  skipUe
  let chroma ← h264Chroma { out with profile := profile }
  skipUe
  return { out with
    profile := profile, level := level, chromaFormat := chroma.1, bitDepth := chroma.2 }

/-- The reads of `sniff_h264_sps` from `max_num_ref_frames` on. -/
def h264Frame (out : NaluInfo) : Read NaluInfo := do
  skipUe
  skipBits 1
  let widthInMbs ← brReadUe
  let heightInMapUnits ← brReadUe
  let frameMbsOnly ← brRead 1
  onlyIf (frameMbsOnly = 0) (skipBits 1)
  skipBits 1
  let cropping ← brRead 1
  let crop ← window cropping
  let units := cropUnits out.chromaFormat frameMbsOnly
  let height := (heightInMapUnits + 1) * 16 % 2 ^ 16
  return { out with
    width := sub16 ((widthInMbs + 1) * 16 % 2 ^ 16) (crop.1 * units.1)
    height := sub16 (if frameMbsOnly ≠ 0 then height else height * 2 % 2 ^ 16) (crop.2 * units.2) }

def h264Sps (out : NaluInfo) : Read NaluInfo := do
  let out ← h264Head out
  picOrderCnt
  h264Frame out

def sniffH264Sps (buf : List UInt8) (out : NaluInfo) : NaluInfo × Nat :=
  if buf.length < 10 then (out, 0) else readFrom buf (h264Sps out)

/-! ## H.265 -/

/-- `sub_layer_profile_present_flag` and `sub_layer_level_present_flag`, for the layers to come. -/
def subLayerFlags : Nat → Read (List (Nat × Nat))
  | 0 => pure []
  | n + 1 => do
    let profile ← brRead 1
    let level ← brRead 1
    let flags ← subLayerFlags n
    return (profile, level) :: flags

/-- `reserved_zero_2bits`, `n` times. -/
def reservedBits : Nat → Read Unit
  | 0 => pure ()
  | n + 1 => do
    skipBits 2
    reservedBits n

def subLayerProfile : Read Unit := do
  skipBits 2
  skipBits 1
  skipBits 5
  skipBits 32
  skipBits 48

def subLayer (flags : Nat × Nat) : Read Unit := do
  onlyIf (flags.1 ≠ 0) subLayerProfile
  onlyIf (flags.2 ≠ 0) (skipBits 8)

def subLayers : List (Nat × Nat) → Read Unit
  | [] => pure ()
  | flags :: rest => do
    subLayer flags
    subLayers rest

/-- The sub-layers of `profile_tier_level`. -/
def subLayerPart (maxSubLayersMinus1 : Nat) : Read Unit := do
  let flags ← subLayerFlags maxSubLayersMinus1
  onlyIf (0 < maxSubLayersMinus1) (reservedBits (8 - maxSubLayersMinus1))
  subLayers flags

def h265Sps (out : NaluInfo) : Read NaluInfo := do
  skipBits 16
  skipBits 4
  let maxSubLayersMinus1 ← brRead 3
  skipBits 1
  skipBits 2
  let highTier ← brRead 1
  let profile ← brRead 5
  skipBits 32
  skipBits 48
  let level ← brRead 8
  subLayerPart maxSubLayersMinus1
  skipUe
  let chroma ← brReadUe
  onlyIf (chroma % 2 ^ 8 = 3) (skipBits 1)
  let width ← brReadUe
  let height ← brReadUe
  let conformance ← brRead 1
  let crop ← window conformance
  let depth ← brReadUe
  skipUe
  let subWc := if chroma % 2 ^ 8 = 1 ∨ chroma % 2 ^ 8 = 2 then 2 else 1
  let subHc := if chroma % 2 ^ 8 = 1 then 2 else 1
  return { out with
    profile := profile
    isHighTier := highTier ≠ 0
    level := level
    chromaFormat := chroma % 2 ^ 8
    width := sub16 (width % 2 ^ 16) (crop.1 * subWc)
    height := sub16 (height % 2 ^ 16) (crop.2 * subHc)
    bitDepth := (depth + 8) % 2 ^ 8 }

def sniffH265Sps (buf : List UInt8) (out : NaluInfo) : NaluInfo × Nat :=
  if buf.length < 16 then (out, 0) else readFrom buf (h265Sps out)

/-! ## `tsa_nalu_sniff` -/

/-- `has_cea708`: `GA94` near the start. -/
def hasGa94 (buf : List UInt8) : Bool :=
  (List.range (min (buf.length - 4) 128)).any fun i =>
    (buf.drop i).take 4 == [0x47, 0x41, 0x39, 0x34]

/-- The slice segment header of H.265.  (The NAL type is at most 9 here, so
    `no_output_of_prior_pics_flag` is never read.) -/
def h265Slice (out : NaluInfo) : Read NaluInfo := do
  let first ← brRead 1
  if first ≠ 0 then do
    onlyIf (16 ≤ out.naluTypeRaw ∧ out.naluTypeRaw ≤ 23) (skipBits 1)
    skipUe
    return { out with sliceType := 0 }
  else return out

def h264Slice (out : NaluInfo) : Read NaluInfo := do
  skipUe
  let sliceType ← brReadUe
  return { out with
    sliceType := ((if 4 < sliceType then sliceType - 5 else sliceType : Nat) : Int).bmod (2 ^ 32) }

def sniffH265 (buf : List UInt8) (out : NaluInfo) : NaluInfo × Nat :=
  let raw := out.naluTypeRaw
  if raw = 33 then sniffH265Sps buf { out with naluTypeAbstract := .sps }
  else if raw = 34 then ({ out with naluTypeAbstract := .pps }, 0)
  else if 16 ≤ raw ∧ raw ≤ 21 then
    ({ out with naluTypeAbstract := .idr, isSlice := true, sliceType := 2
                isClosedGop := raw = 19 ∨ raw = 20 }, 0)
  else if raw ≤ 9 then
    let out := { out with naluTypeAbstract := .nonIdr, isSlice := true }
    if 3 ≤ buf.length then readFrom (buf.drop 2) (h265Slice out) else (out, 0)
  else if raw = 39 ∨ raw = 40 then
    ({ out with naluTypeAbstract := .sei, hasCea708 := hasGa94 buf }, 0)
  else (out, 0)

def sniffH264 (buf : List UInt8) (out : NaluInfo) : NaluInfo × Nat :=
  let raw := out.naluTypeRaw
  if raw = 7 then sniffH264Sps buf { out with naluTypeAbstract := .sps }
  else if raw = 8 then ({ out with naluTypeAbstract := .pps }, 0)
  else if raw = 5 then
    ({ out with naluTypeAbstract := .idr, isSlice := true, sliceType := 2, isClosedGop := true }, 0)
  else if raw = 1 then
    readFrom (buf.drop 1) (h264Slice { out with naluTypeAbstract := .nonIdr, isSlice := true })
  else if raw = 6 then
    ({ out with naluTypeAbstract := .sei, hasCea708 := hasGa94 buf }, 0)
  else (out, 0)

/-- `tsa_nalu_sniff`: what it writes to `out_info` (nothing, if there is no NAL unit), and the
    operations of the bit reader. -/
def tsaNaluSniff (buf : List UInt8) (isH265 : Bool) : Option NaluInfo × Nat :=
  match buf with
  | b0 :: _ :: _ =>
    let r :=
      if isH265 then sniffH265 buf (NaluInfo.blank true ((b0 &&& 0x7E) >>> 1).toNat)
      else sniffH264 buf (NaluInfo.blank false (b0 &&& 0x1F).toNat)
    (some r.1, r.2)
  | _ => (none, 0)

end TsAnalyzer.Nalu
