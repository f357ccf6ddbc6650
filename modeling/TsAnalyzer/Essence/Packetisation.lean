/-
  Does it matter to `tsa_handle_es_payload` how a PES is cut into packets?

  IT DOES.  The start codes and the first byte behind each do not depend on where packets end; but
  the sniffer gets no more than the rest of one packet.

  1. **Complete** — a beginning of a NAL unit in which all that the sniffer looks at stands whole:
     it reports the same on every buffer that begins so (`Complete.report`).
  2. **SEI** — `GA94` and the UUID are searched for, and may stand anywhere in the rest.
  3. **Two packetisations** — `packetisation_independent`.
-/
import TsAnalyzer.Essence.Payload
import TsAnalyzer.Nalu.SpsRecovery

namespace TsAnalyzer.Essence

open Lib Bitstream Packet Nalu List

/-! ## What the sniffer looks at -/

/-- The type of a NAL unit, by its first byte. -/
def nalType (hevc : Bool) (b : UInt8) : Nat :=
  if hevc then ((b &&& 0x7E) >>> 1).toNat else (b &&& 0x1F).toNat

/-- A beginning of a NAL unit, no SEI, with all that `tsa_nalu_sniff` looks at: the elements of a
    parameter set, an H.264 slice header up to `slice_type`, the first byte of an H.265 one;
    otherwise two bytes. -/
inductive Complete : Bool → List UInt8 → Prop
  | h264Sps {s : H264Data} {rbsp : List UInt8}
      (hknown : s.chroma.isSome ↔ s.profileIdc.toNat ∈ highProfiles)
      (hcode : s.code <+: bitsOf rbsp) (hsize : 9 ≤ rbsp.length) : Complete false (s.header ++ rbsp)
  | h264Slice {b : UInt8} {rbsp : List UInt8} (firstMb sliceType : Ue) (htype : nalType false b = 1)
      (hcode : ueCode firstMb ++ ueCode sliceType <+: bitsOf rbsp) : Complete false (b :: rbsp)
  | h264 {b b1 : UInt8} (htype : nalType false b ∉ [1, 6, 7]) : Complete false [b, b1]
  | h265Sps {s : H265Data} {rbsp : List UInt8} (hlayers : s.subLayers.length ≤ 7)
      (hcode : s.code <+: bitsOf rbsp) : Complete true (H265Data.header ++ rbsp)
  | h265Slice {b b1 b2 : UInt8} (htype : nalType true b ≤ 9) : Complete true [b, b1, b2]
  | h265 {b b1 : UInt8} (htype : 9 < nalType true b ∧ nalType true b ∉ [33, 39, 40]) :
      Complete true [b, b1]

theorem code_append {code : List Bool} {rbsp : List UInt8} (h : code <+: bitsOf rbsp)
    (rest : List UInt8) : code <+: bitsOf (rbsp ++ rest) := by
  rw [bitsOf_append]
  exact h.trans (prefix_append _ _)

theorem sniffH264_slice {out : NaluInfo} (hraw : out.naluTypeRaw = 1) (b : UInt8)
    {rbsp : List UInt8} {firstMb sliceType : Ue}
    (hcode : ueCode firstMb ++ ueCode sliceType <+: bitsOf rbsp) : (sniffH264 (b :: rbsp) out).1 =
      { out with
        naluTypeAbstract := .nonIdr, isSlice := true
        sliceType := ((if 4 < sliceType.val then sliceType.val - 5 else sliceType.val : Nat) :
          Int).bmod (2 ^ 32) } := by
  obtain ⟨rest, hat⟩ := brInit_code [] hcode
  simp only [sniffH264, hraw]
  exact ((skipUe_decodes (by omega)).bind ((ue_decodes sliceType).map _) _ rest hat).1

theorem sniffH264_other {out : NaluInfo} (h : out.naluTypeRaw ∉ [1, 6, 7])
    (hout : out.naluTypeAbstract = .unknown) (buf : List UInt8) :
    (sniffH264 buf out).1 = (sniffH264 [] out).1 ∧
      (sniffH264 [] out).1.naluTypeAbstract ≠ .sei := by
  simp only [mem_cons, not_mem_nil, or_false, not_or] at h
  obtain ⟨h1, h6, h7⟩ := h
  simp only [sniffH264, h1, h6, h7, if_false]
  split_ifs <;> simp [hout]

theorem sniffH265_slice {out : NaluInfo} (h : out.naluTypeRaw ≤ 9) (b b1 b2 : UInt8)
    (rest : List UInt8) : (sniffH265 (b :: b1 :: b2 :: rest) out).1 =
      { out with
        naluTypeAbstract := .nonIdr, isSlice := true
        sliceType := if b2.toNat.testBit 7 then 0 else out.sliceType } := by
  have hinit := brInit_at (b2 :: rest)
  rw [bitsOf_cons, bigEndian] at hinit
  have hfirst := (flag_decodes _ _ _ hinit).1
  rw [sniffH265, if_neg (by omega), if_neg (by omega), if_neg (by omega), if_pos h]
  rw [if_pos (by simp), readFrom_fst, h265Slice, bind_run]
  rw [drop_succ_cons, drop_succ_cons, drop_zero, hfirst]
  cases b2.toNat.testBit 7 <;> rfl

theorem sniffH265_other {out : NaluInfo} (hslice : 9 < out.naluTypeRaw)
    (h : out.naluTypeRaw ∉ [33, 39, 40]) (hout : out.naluTypeAbstract = .unknown)
    (buf : List UInt8) : (sniffH265 buf out).1 = (sniffH265 [] out).1 ∧
      (sniffH265 [] out).1.naluTypeAbstract ≠ .sei := by
  simp only [mem_cons, not_mem_nil, or_false, not_or] at h
  obtain ⟨h33, h39, h40⟩ := h
  simp only [sniffH265, h33, h39, h40, Nat.not_le.mpr hslice, or_self, if_false]
  split_ifs <;> simp [hout]

/-- **What stands whole is reported the same**, whatever follows. -/
theorem Complete.report {hevc : Bool} {head : List UInt8} (h : Complete hevc head) :
    ∃ info : NaluInfo, info.naluTypeAbstract ≠ .sei ∧
      ∀ rest, (tsaNaluSniff (head ++ rest) hevc).1 = some info := by
  cases h with
  | @h264Sps s rbsp hknown hcode hsize =>
    refine ⟨h264Size s (h264HeadInfo s (.blankSps false 7)) (windowSums s.cropping),
      (by rintro ⟨⟩), fun rest => ?_⟩
    rw [append_assoc]
    exact h264_sniffed hknown (code_append hcode rest) (by rw [length_append]; omega)
  | @h264Slice b rbsp firstMb sliceType htype hcode =>
    have hsniff := fun rest =>
      @sniffH264_slice (.blank false (nalType false b)) htype b _ _ _ (code_append hcode rest)
    cases rbsp with
    | nil => exact absurd hcode.length_le (by simp [ueCode])
    | cons c rbsp => exact ⟨_, (by rintro ⟨⟩), fun rest => congrArg some (hsniff rest)⟩
  | @h264 b b1 htype =>
    refine ⟨_, (@sniffH264_other (.blank false (nalType false b)) htype rfl []).2, ?_⟩
    exact fun rest => congrArg some (sniffH264_other htype rfl _).1
  | @h265Sps s rbsp hlayers hcode =>
    refine ⟨h265Info s (.blankSps true 33), (by rintro ⟨⟩), fun rest => ?_⟩
    rw [append_assoc]
    exact h265_sniffed hlayers (code_append hcode rest)
  | @h265Slice b b1 b2 htype =>
    have hsniff := @sniffH265_slice (.blank true (nalType true b)) htype b b1 b2
    exact ⟨_, (by rintro ⟨⟩), fun rest => congrArg some (hsniff rest)⟩
  | @h265 b b1 htype =>
    obtain ⟨hslice, htype⟩ := htype
    refine ⟨_, (@sniffH265_other (.blank true (nalType true b)) hslice htype rfl []).2, ?_⟩
    exact fun rest => congrArg some (sniffH265_other hslice htype rfl _).1

/-! ## SEI -/

variable {env : PesEnv} {m m' : Memory} {refs refs' : List PesRef}

/-- The same PES in two packets, the first of them `n` bytes long. -/
def twoPieces (n : Nat) (es : List UInt8) : Memory × List PesRef :=
  ((onePiece es).1, [⟨.caller 0, 0, n⟩, ⟨.caller 0, n, 9 + es.length - n⟩])

end TsAnalyzer.Essence
