/-
  What the sniffer recovers of a sequence parameter set.

  1. **H.264** — `h264Sps_decodes`: a profile the source knows is decoded to the end.  Any other one
     leaves `bit_depth` at 0 (`h264Sps_bitDepth`), and so does a NAL unit below 10 bytes.
  2. **Recovery** — `sps_recovered_iff`, for the parameter sets whose elements hold no emulation
     prevention byte: the sniffer does not take these out.
-/
import TsAnalyzer.Nalu.Sniffer
import TsAnalyzer.Nalu.SpsSyntax

namespace TsAnalyzer.Nalu

open Lib Bitstream List

/-! ## Elements -/

theorem bigEndian_decodes {n v : Nat} (hn : n ≤ 32) (hv : v < 2 ^ n) :
    Decodes Reader.At (brRead n) (bigEndian n v) v := by
  intro r rest hr
  obtain ⟨hvalue, hafter⟩ := brRead_at hr (bigEndian_length n v) (by omega)
  have hword : v < 2 ^ 32 := Nat.lt_of_lt_of_le hv (Nat.pow_le_pow_right (by omega) hn)
  rw [number_bigEndian_of_lt hv, Nat.mod_eq_of_lt hword] at hvalue
  exact ⟨hvalue, hafter⟩

theorem uCode_decodes {n : Nat} (hn : n ≤ 32) (v : BitVec n) :
    Decodes Reader.At (brRead n) (uCode v) v.toNat := bigEndian_decodes hn v.isLt

theorem flag_decodes (b : Bool) : Decodes Reader.At (brRead 1) [b] b.toNat := by
  intro r rest hr
  have hone : [b].length = 1 := rfl
  obtain ⟨hvalue, hafter⟩ := brRead_at hr hone (by decide)
  refine ⟨?_, hafter⟩
  rw [hvalue]
  cases b <;> rfl

theorem skipBits_decodes {n : Nat} {code : List Bool} (hcode : code.length = n) (hn : n ≤ 57) :
    Decodes Reader.At (skipBits n) code () := by
  have hread : Decodes Reader.At (brRead n) code (number code % 2 ^ 32) :=
    fun r rest hr => brRead_at hr hcode hn
  exact hread.map fun _ => ()

theorem skipFlag_decodes (b : Bool) : Decodes Reader.At (skipBits 1) [b] () :=
  (flag_decodes b).map fun _ => ()

theorem skipUCode_decodes {n : Nat} (hn : n ≤ 57) (v : BitVec n) :
    Decodes Reader.At (skipBits n) (uCode v) () :=
  skipBits_decodes (bigEndian_length n v.toNat) hn

theorem ue_decodes (v : Ue) : Decodes Reader.At brReadUe (ueCode v) v :=
  brReadUe_decodes (Nat.le_of_lt_succ v.isLt)

theorem skipUe_decodes {v : Nat} (hv : v ≤ 2 ^ 32 - 2) : Decodes Reader.At skipUe (ueCode v) () :=
  (brReadUe_decodes hv).map fun _ => ()

theorem skipSe_decodes (v : Se) : Decodes Reader.At skipSe (seCode v) () :=
  (brReadSe_decodes v.property.1 v.property.2).map fun _ => ()

theorem window_decodes (w : Option CropWindow) :
    Decodes Reader.At (window w.isSome.toNat) (windowCode w) (windowSums w) := by
  cases w with
  | none => exact Decodes.pure (0, 0)
  | some w =>
    have hpresent : window (some w).isSome.toNat = (do
        let left ← brReadUe
        let right ← brReadUe
        let top ← brReadUe
        let bottom ← brReadUe
        return (left + right, top + bottom)) := if_pos Nat.one_ne_zero
    rw [hpresent]
    refine (ue_decodes w.left).bind ?_
    refine (ue_decodes w.right).bind ?_
    refine (ue_decodes w.top).bind ?_
    exact (ue_decodes w.bottom).map _

/-! ## H.264 -/

theorem addDelta_decodes {lastScale delta : Int} (hlast : 0 ≤ lastScale) (hlast1 : lastScale < 256)
    (hdelta : -128 ≤ delta) (hdelta1 : delta ≤ 127) :
    Decodes Reader.At (addDelta lastScale) (seCode delta) ((lastScale + delta + 256) % 256) := by
  have hread := (brReadSe_decodes (v := delta) (by omega) (by omega)).map fun delta =>
    ((lastScale + delta + 256).bmod (2 ^ 32)).tmod 256
  have hword : ((lastScale + delta + 256).bmod (2 ^ 32)).tmod 256 =
      (lastScale + delta + 256) % 256 := by
    rw [Int.bmod_eq_of_le (by omega) (by omega), Int.tmod_eq_emod_of_nonneg (by omega)]
  rw [hword] at hread
  exact hread

theorem scalingList_decodes (n : Nat) (lastScale next : Int) (deltas : List Int)
    (hlast : 0 ≤ lastScale) (hlast1 : lastScale < 256) (hdeltas : Deltas n lastScale next deltas) :
    Decodes Reader.At (scalingList n lastScale next) (deltas.flatMap seCode) () := by
  induction n generalizing lastScale next deltas with
  | zero =>
    obtain rfl := hdeltas
    exact Decodes.pure ()
  | succ n ih =>
    rw [scalingList, nextScale]
    rw [Deltas] at hdeltas
    by_cases hnext : next = 0
    · rw [if_pos hnext] at hdeltas
      rw [if_neg (not_not.mpr hnext), hnext]
      exact (Decodes.pure 0).after (ih lastScale 0 deltas hlast hlast1 hdeltas)
    · rw [if_neg hnext] at hdeltas
      obtain ⟨delta, rest, rfl, hlow, hhigh, hrest⟩ := hdeltas
      rw [if_pos hnext, flatMap_cons]
      refine (addDelta_decodes hlast hlast1 hlow hhigh).bind ?_
      apply ih _ _ rest ?_ ?_ hrest
      · split <;> omega
      · split <;> omega

theorem scalingListAt_decodes (m : ScalingMatrix) (i : Nat) :
    Decodes Reader.At (scalingListAt i) (scalingListCode (m.lists i)) () := by
  cases hlist : m.lists i with
  | none => exact (flag_decodes false).bind (Decodes.pure ())
  | some deltas =>
    refine (flag_decodes true).bind ?_
    exact scalingList_decodes _ 8 8 deltas (by decide) (by decide) (m.coded i deltas hlist)

theorem scalingMatrix_decodes (count : Nat) (m : Option ScalingMatrix) :
    Decodes Reader.At (onlyIf (m.isSome.toNat ≠ 0) (scalingLists (range count)))
      (scalingMatrixCode count m) () := by
  cases m with
  | none => exact Decodes.pure ()
  | some m =>
    exact Decodes.loop rfl (fun _ _ => rfl) (range count)
      fun i _ => scalingListAt_decodes m i

theorem highChroma_decodes (c : ChromaPart) :
    Decodes Reader.At highChroma c.code
      (c.chromaFormatIdc.val, c.bitDepthLumaMinus8.val + 8) := by
  have hchroma : c.chromaFormatIdc.val % 2 ^ 8 = c.chromaFormatIdc.val :=
    Nat.mod_eq_of_lt (by omega)
  have hdepth : (c.bitDepthLumaMinus8.val + 8) % 2 ^ 8 = c.bitDepthLumaMinus8.val + 8 :=
    Nat.mod_eq_of_lt (by omega)
  rw [highChroma, ChromaPart.code]
  refine (brReadUe_decodes (by omega)).bind ?_
  rw [hchroma]
  refine (Decodes.onlyIf fun _ => skipFlag_decodes c.separateColourPlane).bind ?_
  refine (brReadUe_decodes (by omega)).bind ?_
  refine (skipUe_decodes (by omega)).bind ?_
  refine (skipFlag_decodes c.qpprimeYZeroTransformBypass).bind ?_
  refine (flag_decodes c.scalingMatrix.isSome).bind ?_
  rw [hdepth]
  exact (scalingMatrix_decodes _ c.scalingMatrix).map fun _ => _

theorem refFrameOffsets_decodes (offsets : List Se) :
    Decodes Reader.At (refFrameOffsets offsets.length) (offsets.flatMap fun v => seCode v) () := by
  induction offsets with
  | nil => exact Decodes.pure ()
  | cons v offsets ih => exact (skipSe_decodes v).bind ih

theorem picOrderCnt_decodes (p : PicOrder) : Decodes Reader.At picOrderCnt p.code () := by
  rw [picOrderCnt]
  cases p with
  | lsb v =>
    rw [PicOrder.code]
    refine (brReadUe_decodes (by omega)).bind ?_
    rw [if_pos rfl]
    exact skipUe_decodes (by omega)
  | cycle alwaysZero nonRef topToBottom offsets short =>
    rw [PicOrder.code]
    refine (brReadUe_decodes (by omega)).bind ?_
    rw [if_neg (by decide), if_pos rfl]
    have hlength : Decodes Reader.At cycleLength ([alwaysZero] ++ (seCode nonRef ++
        (seCode topToBottom ++ ueCode offsets.length))) offsets.length := by
      refine (skipFlag_decodes alwaysZero).bind ?_
      refine (skipSe_decodes nonRef).bind ?_
      refine (skipSe_decodes topToBottom).bind ?_
      exact brReadUe_decodes (by omega)
    have hboth := hlength.bind (refFrameOffsets_decodes offsets)
    rw [append_assoc, append_assoc, append_assoc] at hboth
    exact hboth
  | frameNum =>
    rw [PicOrder.code, ← append_nil (ueCode 2)]
    refine (brReadUe_decodes (by omega)).bind ?_
    rw [if_neg (by decide), if_neg (by decide)]
    exact Decodes.pure ()

variable (s : H264Data)

theorem bitsOf_header_length : (bitsOf s.header).length = 8 := bitsOf_length _

/-- The fields up to `log2_max_frame_num_minus4`. -/
def h264HeadInfo (s : H264Data) (out : NaluInfo) : NaluInfo :=
  { out with
    profile := s.profileIdc.toNat, level := s.levelIdc.toNat, chromaFormat := s.chromaFormat
    bitDepth := if s.chroma.isSome then s.bitDepth else out.bitDepth }

/-- The source reads the chroma part of the profiles it knows. -/
theorem h264Head_decodes {s : H264Data}
    (hknown : s.chroma.isSome ↔ s.profileIdc.toNat ∈ highProfiles) (out : NaluInfo) :
    Decodes Reader.At (h264Head out) (bitsOf s.header ++ s.headCode) (h264HeadInfo s out) := by
  have hchroma : Decodes Reader.At (h264Chroma { out with profile := s.profileIdc.toNat })
      (chromaCode s.chroma)
      (s.chromaFormat, if s.chroma.isSome then s.bitDepth else out.bitDepth) := by
    rw [h264Chroma, H264Data.chromaFormat, H264Data.bitDepth]
    cases hc : s.chroma with
    | none =>
      rw [hc] at hknown
      rw [if_neg fun hhigh => Bool.false_ne_true (hknown.mpr hhigh)]
      exact .pure _
    | some c =>
      rw [hc] at hknown
      rw [if_pos (hknown.mp rfl)]
      exact highChroma_decodes c
  rw [h264Head, H264Data.headCode]
  refine (skipBits_decodes (bitsOf_header_length s) (by decide)).bind ?_
  refine (uCode_decodes (by decide) s.profileIdc).bind ?_
  refine (skipUCode_decodes (by decide) s.constraintFlags).bind ?_
  refine (uCode_decodes (by decide) s.levelIdc).bind ?_
  refine (skipUe_decodes (by omega)).bind ?_
  refine hchroma.bind ?_
  exact (skipUe_decodes (by omega)).map fun _ => _

/-- `mb_adaptive_frame_field_flag`. -/
theorem adaptiveFlag_decodes (frameMbsOnly b : Bool) :
    Decodes Reader.At (onlyIf (frameMbsOnly.toNat = 0) (skipBits 1))
      (if frameMbsOnly = false then [b] else []) () := by
  cases frameMbsOnly with
  | false => exact skipFlag_decodes b
  | true => exact Decodes.pure ()

/-- The picture size as the source computes it, from the sums of the offsets. -/
def h264Size (s : H264Data) (out : NaluInfo) (crop : Nat × Nat) : NaluInfo :=
  let units := cropUnits out.chromaFormat s.frameMbsOnly.toNat
  let height := (s.picHeightInMapUnitsMinus1.val + 1) * 16 % 2 ^ 16
  { out with
    width := sub16 ((s.picWidthInMbsMinus1.val + 1) * 16 % 2 ^ 16) (crop.1 * units.1)
    height := sub16 (if s.frameMbsOnly.toNat ≠ 0 then height else height * 2 % 2 ^ 16)
      (crop.2 * units.2) }

theorem h264Frame_decodes (out : NaluInfo) :
    Decodes Reader.At (h264Frame out) s.frameCode (h264Size s out (windowSums s.cropping)) := by
  rw [h264Frame, H264Data.frameCode]
  refine (skipUe_decodes (by omega)).bind ?_
  refine (skipFlag_decodes s.gapsInFrameNumAllowed).bind ?_
  refine (ue_decodes s.picWidthInMbsMinus1).bind ?_
  refine (ue_decodes s.picHeightInMapUnitsMinus1).bind ?_
  refine (flag_decodes s.frameMbsOnly).bind ?_
  refine (adaptiveFlag_decodes s.frameMbsOnly s.mbAdaptiveFrameField).bind ?_
  refine (skipFlag_decodes s.direct8x8Inference).bind ?_
  refine (flag_decodes s.cropping.isSome).bind ?_
  exact (window_decodes s.cropping).map (h264Size s out)

/-- **The whole parameter set.** -/
theorem h264Sps_decodes {s : H264Data}
    (hknown : s.chroma.isSome ↔ s.profileIdc.toNat ∈ highProfiles) (out : NaluInfo) :
    Decodes Reader.At (h264Sps out) (bitsOf s.header ++ s.code)
      (h264Size s (h264HeadInfo s out) (windowSums s.cropping)) := by
  rw [h264Sps, H264Data.code, ← append_assoc]
  refine (h264Head_decodes hknown out).bind ?_
  refine (picOrderCnt_decodes s.picOrder).bind ?_
  exact h264Frame_decodes s _

/-- What comes after the chroma part leaves `bit_depth` alone. -/
theorem h264Frame_bitDepth (out : NaluInfo) (r : Reader) :
    (h264Frame out r).1.bitDepth = out.bitDepth := by
  simp only [h264Frame, bind_run, pure_run]

theorem h264Head_bitDepth {r : Reader} (hprofile : (brRead 8 (skipBits 8 r).2).1 ∉ highProfiles)
    (out : NaluInfo) : (h264Head out r).1.bitDepth = out.bitDepth := by
  simp only [h264Head, bind_run, pure_run]
  rw [h264Chroma, if_neg hprofile]
  rfl

theorem h264Sps_bitDepth {s : H264Data} {r : Reader} {rest : List Bool}
    (hr : r.At (bitsOf s.header ++ (s.code ++ rest))) (hprofile : s.profileIdc.toNat ∉ highProfiles)
    (out : NaluInfo) : (h264Sps out r).1.bitDepth = out.bitDepth := by
  have hskip := (skipBits_decodes (bitsOf_header_length s) (by decide) r _ hr).2
  rw [H264Data.code, H264Data.headCode, append_assoc, append_assoc] at hskip
  have hread := (uCode_decodes (by decide) s.profileIdc _ _ hskip).1
  rw [← hread] at hprofile
  rw [h264Sps, bind_run, bind_run, h264Frame_bitDepth, h264Head_bitDepth hprofile]

/-! ## The picture of H.264 -/

theorem sub16_eq {x d : Nat} (hle : d ≤ x) (hlt : x - d < 2 ^ 16) : sub16 (x % 2 ^ 16) d = x - d := by
  rw [sub16]
  omega

namespace H264Data

theorem chromaFormat_of_array_zero {s : H264Data} (h : s.chromaArrayType = 0) :
    s.chromaFormat = 0 ∨ s.chromaFormat = 3 := by
  rw [chromaArrayType] at h
  rw [chromaFormat]
  cases hchroma : s.chroma with
  | none =>
    rw [hchroma] at h
    cases h
  | some c =>
    rw [hchroma, Option.elim_some] at h
    split at h
    · rename_i h3
      exact Or.inr h3.1
    · exact Or.inl h

theorem cropUnitX_eq : s.cropUnitX = subWidthC s.chromaFormat := by
  rw [cropUnitX]
  split
  · rename_i h
    rcases chromaFormat_of_array_zero h with h0 | h3
    · rw [h0]
      rfl
    · rw [h3]
      rfl
  · rfl

theorem cropUnitY_eq : s.cropUnitY = subHeightC s.chromaFormat * s.fieldsPerFrame := by
  rw [cropUnitY]
  split
  · rename_i h
    rcases chromaFormat_of_array_zero h with h0 | h3
    · rw [h0]
      rfl
    · rw [h3]
      rfl
  · rfl

end H264Data

theorem cropUnits_fst (chroma frameMbsOnly : Nat) :
    (cropUnits chroma frameMbsOnly).1 = subWidthC chroma := by
  rw [cropUnits, subWidthC]
  split
  · rename_i h
    rw [if_pos (Or.inl h)]
  · split
    · rename_i h
      rw [if_pos (Or.inr h)]
    · rw [if_neg (by omega)]

theorem cropUnits_snd (chroma : Nat) (frameMbsOnly : Bool) :
    (cropUnits chroma frameMbsOnly.toNat).2 =
      if chroma = 1 ∨ chroma = 2 then subHeightC chroma * (2 - frameMbsOnly.toNat) else 1 := by
  rw [cropUnits, subHeightC]
  cases frameMbsOnly with
  | false | true =>
    rcases Nat.lt_or_ge chroma 3 with hlt | hge
    · interval_cases chroma <;> rfl
    · rw [if_neg (by omega), if_neg (by omega), if_neg (by omega)]

/-- The fields a sniffed NAL unit has in common with a parameter set. -/
def NaluInfo.spsFields (out : NaluInfo) : SpsFields where
  profile := out.profile
  level := out.level
  chromaFormat := out.chromaFormat
  bitDepth := out.bitDepth
  width := out.width
  height := out.height

theorem NaluInfo.spsFields_bitDepth (out : NaluInfo) : out.spsFields.bitDepth = out.bitDepth := rfl

theorem H264Data.fields_bitDepth : s.fields.bitDepth = s.bitDepth := rfl

theorem h264Size_width (s : H264Sps) {out : NaluInfo}
    (hchroma : out.chromaFormat = s.toH264Data.chromaFormat) :
    (h264Size s.toH264Data out (windowSums s.cropping)).width = s.toH264Data.fields.width := by
  have hcrops := s.cropsX
  have hlt : s.fullWidth - s.cropUnitX * (windowSums s.cropping).1 < 2 ^ 16 := s.width_lt
  show sub16 (s.fullWidth % 2 ^ 16) ((windowSums s.cropping).1 * (cropUnits _ _).1) =
    s.fullWidth - s.cropUnitX * (windowSums s.cropping).1
  rw [cropUnits_fst, hchroma, ← H264Data.cropUnitX_eq, Nat.mul_comm]
  exact sub16_eq (Nat.le_of_lt hcrops) hlt

theorem h264Size_height_iff (s : H264Sps) {out : NaluInfo}
    (hchroma : out.chromaFormat = s.toH264Data.chromaFormat) :
    (h264Size s.toH264Data out (windowSums s.cropping)).height = s.toH264Data.fields.height ↔
      s.frameMbsOnly = true ∨ s.toH264Data.chromaFormat = 1 ∨ s.toH264Data.chromaFormat = 2 ∨
        (windowSums s.cropping).2 % 2 ^ 16 = 0 := by
  have hcrops := s.cropsY
  have hlt : s.fullHeight - s.cropUnitY * (windowSums s.cropping).2 < 2 ^ 16 := s.height_lt
  have hfull : (if s.frameMbsOnly.toNat ≠ 0 then (s.picHeightInMapUnitsMinus1.val + 1) * 16 % 2 ^ 16
      else (s.picHeightInMapUnitsMinus1.val + 1) * 16 % 2 ^ 16 * 2 % 2 ^ 16) =
      s.fullHeight % 2 ^ 16 := by
    rw [H264Data.fullHeight, H264Data.fieldsPerFrame]
    cases s.frameMbsOnly with
    | false =>
      show (s.picHeightInMapUnitsMinus1.val + 1) * 16 % 2 ^ 16 * 2 % 2 ^ 16 =
        2 * ((s.picHeightInMapUnitsMinus1.val + 1) * 16) % 2 ^ 16
      omega
    | true =>
      show (s.picHeightInMapUnitsMinus1.val + 1) * 16 % 2 ^ 16 =
        1 * ((s.picHeightInMapUnitsMinus1.val + 1) * 16) % 2 ^ 16
      omega
  show sub16 (if s.frameMbsOnly.toNat ≠ 0 then _ else _)
      ((windowSums s.cropping).2 * (cropUnits _ _).2) =
    s.fullHeight - s.cropUnitY * (windowSums s.cropping).2 ↔ _
  rw [hfull, cropUnits_snd, hchroma]
  rw [H264Data.cropUnitY_eq] at hcrops hlt ⊢
  by_cases hsub : s.toH264Data.chromaFormat = 1 ∨ s.toH264Data.chromaFormat = 2
  · rw [if_pos hsub, Nat.mul_comm (windowSums s.cropping).2]
    refine ⟨fun _ => by tauto, fun _ => ?_⟩
    exact sub16_eq (Nat.le_of_lt hcrops) hlt
  · have hone : subHeightC s.toH264Data.chromaFormat = 1 := if_neg (by tauto)
    rw [hone, Nat.one_mul, H264Data.fieldsPerFrame] at hcrops hlt ⊢
    rw [if_neg hsub, Nat.mul_one, sub16]
    cases hframe : s.frameMbsOnly with
    | false =>
      rw [hframe, Bool.toNat_false] at hcrops hlt
      rw [Bool.toNat_false]
      constructor
      · intro heq
        omega
      · rintro (h | h | h | h)
        · cases h
        · exact absurd (Or.inl h) hsub
        · exact absurd (Or.inr h) hsub
        · omega
    | true =>
      rw [hframe, Bool.toNat_true] at hcrops hlt
      rw [Bool.toNat_true]
      refine ⟨fun _ => Or.inl rfl, fun _ => ?_⟩
      omega

/-! ## H.265 -/

/-- The flags of a sub-layer as the loop stores them. -/
def SubLayer.flags (l : SubLayer) : Nat × Nat := (l.profile.isSome.toNat, l.level.isSome.toNat)

theorem subLayerFlags_decodes (layers : List SubLayer) :
    Decodes Reader.At (subLayerFlags layers.length) (layers.flatMap SubLayer.flagsCode)
      (layers.map SubLayer.flags) := by
  induction layers with
  | nil => exact Decodes.pure []
  | cons l layers ih =>
    rw [length_cons, subLayerFlags, flatMap_cons, SubLayer.flagsCode, append_assoc]
    refine (flag_decodes l.profile.isSome).bind ?_
    refine (flag_decodes l.level.isSome).bind ?_
    exact ih.map fun flags => l.flags :: flags

theorem reservedBits_decodes (n : Nat) :
    Decodes Reader.At (reservedBits n) (replicate (2 * n) false) () := by
  induction n with
  | zero => exact Decodes.pure ()
  | succ n ih =>
    have hsplit : replicate (2 * (n + 1)) false =
        [false, false] ++ replicate (2 * n) false := by
      rw [show 2 * (n + 1) = 2 * n + 1 + 1 by omega, replicate_succ, replicate_succ]
      rfl
    have htwo : [false, false].length = 2 := rfl
    rw [reservedBits, hsplit]
    exact (skipBits_decodes htwo (by decide)).bind ih

theorem subLayerProfile_decodes (p : ProfileTier) :
    Decodes Reader.At subLayerProfile p.code () := by
  rw [subLayerProfile, ProfileTier.code]
  refine (skipUCode_decodes (by decide) p.profileSpace).bind ?_
  refine (skipFlag_decodes p.tierFlag).bind ?_
  refine (skipUCode_decodes (by decide) p.profileIdc).bind ?_
  refine (skipUCode_decodes (by decide) p.compatibilityFlags).bind ?_
  exact skipUCode_decodes (by decide) p.constraintFlags

theorem subLayer_decodes (l : SubLayer) : Decodes Reader.At (subLayer l.flags) l.code () := by
  have hprofile : Decodes Reader.At (onlyIf (l.profile.isSome.toNat ≠ 0) subLayerProfile)
      (l.profile.elim [] ProfileTier.code) () := by
    cases l.profile with
    | none => exact Decodes.pure ()
    | some p => exact subLayerProfile_decodes p
  have hlevel : Decodes Reader.At (onlyIf (l.level.isSome.toNat ≠ 0) (skipBits 8))
      (l.level.elim [] uCode) () := by
    cases l.level with
    | none => exact Decodes.pure ()
    | some v => exact skipUCode_decodes (by decide) v
  exact hprofile.bind hlevel

theorem subLayers_decodes (layers : List SubLayer) :
    Decodes Reader.At (subLayers (layers.map SubLayer.flags)) (layers.flatMap SubLayer.code) () :=
  Decodes.loop (f := fun l : SubLayer => subLayer l.flags)
    (g := fun ls : List SubLayer => subLayers (ls.map SubLayer.flags)) rfl (fun _ _ => rfl) layers
    fun l _ => subLayer_decodes l

theorem subLayerPart_decodes (s : H265Data) :
    Decodes Reader.At (subLayerPart s.subLayers.length) s.subLayersCode () := by
  rw [subLayerPart, H265Data.subLayersCode]
  refine (subLayerFlags_decodes s.subLayers).bind ?_
  refine (Decodes.onlyIf fun _ => reservedBits_decodes _).bind ?_
  exact subLayers_decodes s.subLayers

/-- What the source makes of the elements. -/
def h265Info (s : H265Data) (out : NaluInfo) : NaluInfo :=
  { out with
    profile := s.general.profileIdc.toNat
    isHighTier := s.general.tierFlag.toNat ≠ 0
    level := s.levelIdc.toNat
    chromaFormat := s.chromaFormatIdc.val
    width := sub16 (s.picWidthInLumaSamples.val % 2 ^ 16)
      ((windowSums s.conformanceWindow).1 * subWidthC s.chromaFormatIdc.val)
    height := sub16 (s.picHeightInLumaSamples.val % 2 ^ 16)
      ((windowSums s.conformanceWindow).2 * subHeightC s.chromaFormatIdc.val)
    bitDepth := s.bitDepthLumaMinus8.val + 8 }

/-- **The whole parameter set.** -/
theorem h265Sps_decodes {s : H265Data} (hlayers : s.subLayers.length ≤ 7) (out : NaluInfo) :
    Decodes Reader.At (h265Sps out) (bitsOf H265Data.header ++ s.code) (h265Info s out) := by
  have hheader : (bitsOf H265Data.header).length = 16 := rfl
  have hchroma : s.chromaFormatIdc.val % 2 ^ 8 = s.chromaFormatIdc.val :=
    Nat.mod_eq_of_lt (by omega)
  have hdepth : (s.bitDepthLumaMinus8.val + 8) % 2 ^ 8 = s.bitDepthLumaMinus8.val + 8 :=
    Nat.mod_eq_of_lt (by omega)
  rw [h265Sps, H265Data.code, ProfileTier.code]
  simp only [append_assoc]
  refine (skipBits_decodes hheader (by decide)).bind ?_
  refine (skipUCode_decodes (by decide) s.vpsId).bind ?_
  refine (bigEndian_decodes (by decide) (by omega)).bind ?_
  refine (skipFlag_decodes s.temporalIdNesting).bind ?_
  refine (skipUCode_decodes (by decide) s.general.profileSpace).bind ?_
  refine (flag_decodes s.general.tierFlag).bind ?_
  refine (uCode_decodes (by decide) s.general.profileIdc).bind ?_
  refine (skipUCode_decodes (by decide) s.general.compatibilityFlags).bind ?_
  refine (skipUCode_decodes (by decide) s.general.constraintFlags).bind ?_
  refine (uCode_decodes (by decide) s.levelIdc).bind ?_
  refine (subLayerPart_decodes s).bind ?_
  refine (skipUe_decodes (by omega)).bind ?_
  refine (brReadUe_decodes (by omega)).bind ?_
  rw [hchroma]
  refine (Decodes.onlyIf fun _ => skipFlag_decodes s.separateColourPlane).bind ?_
  refine (ue_decodes s.picWidthInLumaSamples).bind ?_
  refine (ue_decodes s.picHeightInLumaSamples).bind ?_
  refine (flag_decodes s.conformanceWindow.isSome).bind ?_
  refine (window_decodes s.conformanceWindow).bind ?_
  refine (brReadUe_decodes (by omega)).bind ?_
  rw [hdepth]
  exact (skipUe_decodes (by omega)).map fun _ => h265Info s out

theorem h265Info_fields (s : H265Sps) (out : NaluInfo) :
    (h265Info s.toH265Data out).spsFields = s.toH265Data.fields := by
  have hwidth : sub16 (s.picWidthInLumaSamples.val % 2 ^ 16)
      ((windowSums s.conformanceWindow).1 * subWidthC s.chromaFormatIdc.val) =
      s.toH265Data.fields.width := by
    rw [Nat.mul_comm]
    exact sub16_eq (Nat.le_of_lt s.cropsX) s.width_lt
  have hheight : sub16 (s.picHeightInLumaSamples.val % 2 ^ 16)
      ((windowSums s.conformanceWindow).2 * subHeightC s.chromaFormatIdc.val) =
      s.toH265Data.fields.height := by
    rw [Nat.mul_comm]
    exact sub16_eq (Nat.le_of_lt s.cropsY) s.height_lt
  rw [NaluInfo.spsFields, h265Info]
  simp only [hwidth, hheight]
  rfl

/-! ## Recovery -/

/-- The fields when `tsa_nalu_sniff` has seen the type of a parameter set. -/
def NaluInfo.blankSps (isH265 : Bool) (naluTypeRaw : Nat) : NaluInfo :=
  { NaluInfo.blank isH265 naluTypeRaw with naluTypeAbstract := .sps }

theorem readFrom_fst (buf : List UInt8) (m : Read NaluInfo) :
    (readFrom buf m).1 = (m (brInit buf)).1 := rfl

theorem brInit_code (header : List UInt8) {bytes : List UInt8} {code : List Bool}
    (hcode : code <+: bitsOf bytes) :
    ∃ rest, (brInit (header ++ bytes)).At (bitsOf header ++ (code ++ rest)) := by
  obtain ⟨rest, hrest⟩ := hcode
  have hinit := brInit_at (header ++ bytes)
  rw [bitsOf_append, ← hrest] at hinit
  exact ⟨rest, hinit⟩

namespace H264Data

/-- What the source gets right: 10 bytes at least, a profile it knows, and the vertical unit. -/
def Recoverable (s : H264Data) (size : Nat) : Prop :=
  10 ≤ size ∧ s.profileIdc.toNat ∈ highProfiles ∧
    (s.frameMbsOnly = true ∨ s.chromaFormat = 1 ∨ s.chromaFormat = 2 ∨
      (windowSums s.cropping).2 % 2 ^ 16 = 0)

theorem bitDepth_pos : 0 < s.bitDepth := by
  rw [bitDepth]
  cases s.chroma with
  | none => decide
  | some c => exact Nat.succ_pos _

theorem sniffed {bytes : List UInt8} (hne : bytes ≠ []) :
    (tsaNaluSniff (s.header ++ bytes) false).1 =
      some (sniffH264Sps (s.header ++ bytes) (NaluInfo.blankSps false 7)).1 := by
  have hraw : ∀ v : BitVec 2, (UInt8.ofNat (v.toNat * 32 + 7) &&& 0x1F).toNat = 7 := by decide
  cases bytes with
  | nil => exact absurd rfl hne
  | cons b bytes =>
    show some (sniffH264 _ (NaluInfo.blank false
      (UInt8.ofNat (s.nalRefIdc.toNat * 32 + 7) &&& 0x1F).toNat)).1 = _
    rw [hraw]
    rfl

theorem code_length : 8 ≤ s.code.length := by
  rw [code, headCode, length_append, length_append, uCode, bigEndian_length]
  omega

end H264Data

theorem h264_sniffed {s : H264Data}
    (hknown : s.chroma.isSome ↔ s.profileIdc.toNat ∈ highProfiles) {bytes : List UInt8}
    (hcode : s.code <+: bitsOf bytes) (hsize : 9 ≤ bytes.length) :
    (tsaNaluSniff (s.header ++ bytes) false).1 =
      some (h264Size s (h264HeadInfo s (.blankSps false 7)) (windowSums s.cropping)) := by
  obtain ⟨rest, hat⟩ := brInit_code s.header hcode
  rw [← append_assoc] at hat
  have hlong : ¬ (s.header ++ bytes).length < 10 := by
    rw [length_append]
    show ¬ 1 + bytes.length < 10
    omega
  rw [s.sniffed (ne_nil_of_length_pos (by omega)), sniffH264Sps, if_neg hlong, readFrom_fst,
    (h264Sps_decodes hknown _ _ rest hat).1]

theorem highProfiles_subset : ∀ p ∈ highProfiles, p ∈ chromaProfiles := by decide

theorem h264_fields_iff (s : H264Sps) {bytes : List UInt8}
    (hcode : s.toH264Data.code <+: bitsOf bytes) :
    (tsaNaluSniff (s.header ++ bytes) false).1.map NaluInfo.spsFields = some s.toH264Data.fields ↔
      s.Recoverable (s.header ++ bytes).length := by
  have hlen := hcode.length_le
  have hmin := s.code_length
  rw [bitsOf_length] at hlen
  have hne : bytes ≠ [] := by
    rintro rfl
    rw [length_nil] at hlen
    omega
  obtain ⟨rest, hat⟩ := brInit_code s.header hcode
  have hdepth := s.bitDepth_pos
  rw [s.sniffed hne, Option.map_some, Option.some_inj, sniffH264Sps, H264Data.Recoverable]
  by_cases hshort : (s.header ++ bytes).length < 10
  · rw [if_pos hshort]
    constructor
    · intro heq
      have hzero : 0 = s.bitDepth := congrArg SpsFields.bitDepth heq
      omega
    · intro h
      omega
  rw [if_neg hshort]
  by_cases hprofile : s.profileIdc.toNat ∈ highProfiles
  · have hsome := s.chroma_iff.mpr (highProfiles_subset _ hprofile)
    have hknown := iff_of_true hsome hprofile
    rw [← append_assoc] at hat
    have hvalue := (h264Sps_decodes hknown (NaluInfo.blankSps false 7) _ rest hat).1
    obtain ⟨out, hout⟩ : ∃ out, out = h264HeadInfo s.toH264Data (.blankSps false 7) := ⟨_, rfl⟩
    have hchroma : out.chromaFormat = s.chromaFormat := by rw [hout, h264HeadInfo]
    rw [← hout] at hvalue
    rw [← h264Size_height_iff s hchroma, readFrom_fst, hvalue]
    constructor
    · intro heq
      exact ⟨Nat.le_of_not_lt hshort, hprofile, congrArg SpsFields.height heq⟩
    · rintro ⟨-, -, heq⟩
      rw [NaluInfo.spsFields, h264Size_width s hchroma, heq]
      rw [h264Size, hout, h264HeadInfo, if_pos hsome]
      rfl
  · constructor
    · intro heq
      have hzero := h264Sps_bitDepth hat hprofile (NaluInfo.blankSps false 7)
      have hsame := congrArg SpsFields.bitDepth heq
      rw [NaluInfo.spsFields_bitDepth, H264Data.fields_bitDepth, readFrom_fst, hzero] at hsame
      have hblank : (NaluInfo.blankSps false 7).bitDepth = 0 := rfl
      omega
    · intro h
      exact absurd h.2.1 hprofile

theorem H265Data.code_length (s : H265Data) : 105 ≤ s.code.length := by
  have hue : ∀ v, 1 ≤ (ueCode v).length := by
    intro v
    rw [ueCode, length_append, bigEndian_length]
    omega
  have hid := hue s.seqParameterSetId
  simp only [H265Data.code, ProfileTier.code, uCode, length_append, bigEndian_length,
    length_singleton]
  omega

theorem h265_sniffed {s : H265Data} (hlayers : s.subLayers.length ≤ 7) {bytes : List UInt8}
    (hcode : s.code <+: bitsOf bytes) : (tsaNaluSniff (H265Data.header ++ bytes) true).1 =
      some (h265Info s (NaluInfo.blankSps true 33)) := by
  have hlen := hcode.length_le
  have hmin := s.code_length
  rw [bitsOf_length] at hlen
  have hlong : ¬ (H265Data.header ++ bytes).length < 16 := by
    rw [length_append]
    show ¬ 2 + bytes.length < 16
    omega
  obtain ⟨rest, hat⟩ := brInit_code H265Data.header hcode
  rw [← append_assoc] at hat
  have hvalue := (h265Sps_decodes hlayers (NaluInfo.blankSps true 33) _ rest hat).1
  have hsniff : (tsaNaluSniff (H265Data.header ++ bytes) true).1 =
      some (sniffH265Sps (H265Data.header ++ bytes) (NaluInfo.blankSps true 33)).1 := rfl
  rw [hsniff, sniffH265Sps, if_neg hlong, readFrom_fst, hvalue]

namespace Sps

/-- `tsa_nalu_sniff` returns what the parameter set says. -/
def Recovered (s : Sps) (buf : List UInt8) : Prop :=
  (tsaNaluSniff buf s.isH265).1.map NaluInfo.spsFields = some s.fields

/-- What the source gets right, of a NAL unit of `size` bytes. -/
def Recoverable : Sps → Nat → Prop
  | h264 s, size => s.toH264Data.Recoverable size
  | h265 _, _ => True

end Sps

/-- **Recovery of a parameter set** whose elements hold no emulation prevention byte: every one of
    H.265, and of H.264 those of at least 10 bytes and a profile the source knows, unless fields are
    cropped vertically without subsampled chroma. -/
theorem sps_recovered_iff (s : Sps) (rbsp : List UInt8) (hcoded : s.code <+: bitsOf rbsp)
    (hplain : s.Undisturbed rbsp) :
    s.Recovered (s.nalUnit rbsp) ↔ s.Recoverable (s.nalUnit rbsp).length := by
  have hcode := hplain.code_kept hcoded
  rw [Sps.Recovered, Sps.nalUnit]
  cases s with
  | h264 s =>
    rw [Sps.isH265, Sps.header, Sps.fields, Sps.Recoverable]
    exact h264_fields_iff s hcode
  | h265 s =>
    rw [Sps.isH265, Sps.header, Sps.fields, Sps.Recoverable]
    rw [h265_sniffed (Nat.le_succ_of_le s.layers) hcode]
    exact iff_of_true (congrArg some (h265Info_fields s _)) trivial

/-- High profile, level 4.0, 1920 × 1088 cropped to 1080 lines. -/
def high1080 : H264Sps where
  nalRefIdc := 3
  profileIdc := 100
  constraintFlags := 0
  levelIdc := 40
  seqParameterSetId := 0
  chroma := some ⟨1, false, 0, 0, false, none⟩
  log2MaxFrameNumMinus4 := 0
  picOrder := .lsb 2
  maxNumRefFrames := 4
  gapsInFrameNumAllowed := false
  picWidthInMbsMinus1 := 119
  picHeightInMapUnitsMinus1 := 67
  frameMbsOnly := true
  mbAdaptiveFrameField := false
  direct8x8Inference := true
  cropping := some ⟨0, 0, 0, 4⟩
  chroma_iff := by decide +kernel
  cropsX := by decide +kernel
  cropsY := by decide +kernel
  width_lt := by decide +kernel
  height_lt := by decide +kernel

/-- Its emulation prevention bytes stand in the VUI, behind all elements. -/
theorem high1080_recovered :
    ((tsaNaluSniff [0x67, 0x64, 0x00, 0x28, 0xac, 0xd9, 0x40, 0x78, 0x02, 0x27, 0xe5, 0x84, 0x00,
      0x00, 0x03, 0x00, 0x04, 0x00, 0x00, 0x03, 0x00, 0xf0, 0x3c, 0x60, 0xc6, 0x58] false).1.map
      NaluInfo.spsFields) = some ⟨100, 40, 1, 8, 1920, 1080⟩ := by
  have h := (sps_recovered_iff (.h264 high1080) [0x64, 0x00, 0x28, 0xac, 0xd9, 0x40, 0x78, 0x02,
    0x27, 0xe5, 0x84, 0x00, 0x00, 0x00, 0x04, 0x00, 0x00, 0x00, 0xf0, 0x3c, 0x60, 0xc6, 0x58]
    (by decide +kernel) (by decide +kernel)).mpr
    ⟨by decide +kernel, by decide +kernel, Or.inl rfl⟩
  exact h

/-- Main profile, level 3.1, 1280 × 720, as encoders write it. -/
def main720 : H265Sps where
  vpsId := 0
  temporalIdNesting := true
  general := ⟨0, false, 1, 0x60000000, 0x900000000000⟩
  levelIdc := 93
  subLayers := []
  seqParameterSetId := 0
  chromaFormatIdc := 1
  separateColourPlane := false
  picWidthInLumaSamples := 1280
  picHeightInLumaSamples := 720
  conformanceWindow := none
  bitDepthLumaMinus8 := 0
  bitDepthChromaMinus8 := 0
  layers := by decide
  cropsX := by decide +kernel
  cropsY := by decide +kernel
  width_lt := by decide +kernel
  height_lt := by decide +kernel

def main720Rbsp : List UInt8 :=
  [0x01, 0x01, 0x60, 0x00, 0x00, 0x00, 0x90, 0x00, 0x00, 0x00, 0x00, 0x00, 0x5d, 0xa0, 0x02, 0x80,
    0x80, 0x2d, 0x16, 0x59]

/-- The zero bytes among its flags are broken up by three emulation prevention bytes, and nothing
    behind them is read right. -/
theorem main720_not_recovered :
    (Sps.h265 main720).code <+: bitsOf main720Rbsp ∧
    (Sps.h265 main720).nalUnit main720Rbsp =
      [0x42, 0x01, 0x01, 0x01, 0x60, 0x00, 0x00, 0x03, 0x00, 0x90, 0x00, 0x00, 0x03, 0x00, 0x00,
        0x03, 0x00, 0x5d, 0xa0, 0x02, 0x80, 0x80, 0x2d, 0x16, 0x59] ∧
    (Sps.h265 main720).fields = ⟨1, 93, 1, 8, 1280, 720⟩ ∧
    (tsaNaluSniff ((Sps.h265 main720).nalUnit main720Rbsp) true).1.map NaluInfo.spsFields =
      some ⟨1, 0, 22, 135, 2, 1⟩ := by
  decide +kernel

end TsAnalyzer.Nalu
