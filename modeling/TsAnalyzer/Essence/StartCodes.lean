/-
  The start-code scan of `tsa_handle_es_payload` (`src/tsa_es.c`): which buffers the NAL sniffer
  gets of a PES.

  1. **Program** — `scan`: `memchr` for a zero in what is left of the packet, a check for 00 00 01
     across packets, and the rest of ONE packet for the sniffer.  A byte 01 right after the start
     code is skipped.
  2. **Specification** — `StartsAt`: 00 00 01 at a position of the PES, however it is packetised.
-/
import TsAnalyzer.Essence.Accumulator
import TsAnalyzer.Packet.Decode

namespace TsAnalyzer.Essence

open Lib Packet List

/-! ## Program -/

/-- `tsa_pes_get_ptr`, with the bytes from there to the end of the packet. -/
def restAt (m : Memory) (refs : List PesRef) (offset : Nat) : Option (List UInt8) :=
  (tsaPesGetPtr refs offset).map fun at_ =>
    (range at_.2.2).map fun k => m.byte at_.1 (at_.2.1 + k)

def tsaPesCheckStartCode (m : Memory) (refs : List PesRef) (offset : Nat) : Bool :=
  tsaPesCopyData m refs offset 3 = [0x00, 0x00, 0x01]

/-- `data_off` for a start code at `offset`. -/
def dataOff (m : Memory) (refs : List PesRef) (offset : Nat) : Nat :=
  if (restAt m refs (offset + 3)).bind head? = some 0x01 then offset + 4 else offset + 3

/-- What the sniffer gets for a start code at `offset`: at most one buffer. -/
def handed (m : Memory) (refs : List PesRef) (offset : Nat) : List (List UInt8) :=
  (restAt m refs (dataOff m refs offset)).toList

theorem restAt_spec (m : Memory) (refs : List PesRef) (offset : Nat) :
    match restAt m refs offset with
    | none => (pesBytes m refs).length ≤ offset
    | some p => 0 < p.length ∧ offset + p.length ≤ (pesBytes m refs).length ∧
        p = ((pesBytes m refs).drop offset).take p.length := by
  have hspec := tsaPesGetPtr_spec m refs offset
  rw [restAt]
  cases hptr : tsaPesGetPtr refs offset with
  | none =>
    rw [hptr] at hspec
    exact hspec
  | some at_ =>
    rw [hptr] at hspec
    obtain ⟨hpos, hend, htake⟩ := hspec
    have hlen : ((range at_.2.2).map fun k => m.byte at_.1 (at_.2.1 + k)).length = at_.2.2 := by
      rw [length_map, length_range]
    show 0 < ((range at_.2.2).map _).length ∧ _ ∧ _
    rw [hlen]
    exact ⟨hpos, hend, (htake _ (Nat.le_refl _)).symm⟩

variable {m : Memory} {refs : List PesRef} {offset : Nat} {p : List UInt8}

theorem restAt_pos (h : restAt m refs offset = some p) : 0 < p.length := by
  have hspec := restAt_spec m refs offset
  rw [h] at hspec
  exact hspec.1

/-- The loop, with the buffers it hands to the sniffer. -/
def scan (m : Memory) (refs : List PesRef) (total offset : Nat) : List (List UInt8) :=
  if offset + 4 ≤ total then
    match _hrest : restAt m refs offset with
    | none => []
    | some p =>
      match p.findIdx? fun b => b == 0x00 with
      | none => scan m refs total (offset + p.length)
      | some k =>
        if total < offset + k + 3 then []
        else if tsaPesCheckStartCode m refs (offset + k) then
          handed m refs (offset + k) ++ scan m refs total (offset + k + 3)
        else scan m refs total (offset + k + 1)
  else []
  termination_by total - offset
  decreasing_by
    · have := restAt_pos _hrest
      omega
    · omega
    · omega

def tsaIsH264 (streamType : UInt8) : Bool := streamType = 0x1b
def tsaIsHevc (streamType : UInt8) : Bool := streamType = 0x24

/-- The PES header, from a copy of the first 32 bytes. -/
def pesHeader (m : Memory) (refs : List PesRef) : Option PesHeader :=
  let header := tsaPesCopyData m refs 0 32
  tsaParsePesHeader (fun i => header.getD i 0) header.length ⟨0, false, false, 0, 0, 0⟩

/-- The buffers that `tsa_handle_es_payload` hands to the sniffer, in order. -/
def sniffed (streamType : UInt8) (m : Memory) (refs : List PesRef) : List (List UInt8) :=
  let total := (pesBytes m refs).length
  if total < 6 then []
  else
    match pesHeader m refs with
    | none => []
    | some ph =>
      if !tsaIsH264 streamType ∧ !tsaIsHevc streamType then [] else scan m refs total ph.headerLen

/-! ## Specification -/

/-- 00 00 01 at position `q`. -/
def StartsAt (bytes : List UInt8) (q : Nat) : Prop :=
  bytes[q]? = some 0x00 ∧ bytes[q + 1]? = some 0x00 ∧ bytes[q + 2]? = some 0x01
deriving Decidable

def startCodes (bytes : List UInt8) (offset : Nat) : List Nat :=
  (range' offset (bytes.length - offset)).filter fun q => StartsAt bytes q

variable {bytes : List UInt8} {q : Nat}

theorem startsAt_iff : (bytes.drop q).take 3 = [0x00, 0x00, 0x01] ↔ StartsAt bytes q := by
  have hget : ∀ i < 3, ((bytes.drop q).take 3)[i]? = bytes[q + i]? := by
    intro i hi
    rw [getElem?_take, if_pos hi, getElem?_drop]
  constructor
  · intro h
    rw [h] at hget
    exact ⟨(hget 0 (by decide)).symm, (hget 1 (by decide)).symm, (hget 2 (by decide)).symm⟩
  · rintro ⟨h0, h1, h2⟩
    apply ext_getElem?
    intro i
    by_cases hi : i < 3
    · rw [hget i hi]
      interval_cases i
      · exact h0
      · exact h1
      · exact h2
    · have hlen : ((bytes.drop q).take 3).length ≤ 3 := length_take_le 3 _
      rw [getElem?_eq_none (by omega), getElem?_eq_none (by simp; omega)]

theorem StartsAt.lt (h : StartsAt bytes q) : q + 2 < bytes.length := by
  by_contra hle
  have hlast := h.2.2
  rw [getElem?_eq_none (by omega)] at hlast
  cases hlast

theorem startCodes_skip {k : Nat} (h : ∀ q, offset ≤ q → q < offset + k → ¬ StartsAt bytes q) :
    startCodes bytes offset = startCodes bytes (offset + k) := by
  by_cases hk : k ≤ bytes.length - offset
  · have hsplit : range' offset (bytes.length - offset) =
        range' offset k ++ range' (offset + k) (bytes.length - (offset + k)) := by
      rw [show bytes.length - (offset + k) = bytes.length - offset - k by omega]
      have happend := range'_append_1 (s := offset) (m := k) (n := bytes.length - offset - k)
      rw [happend, show k + (bytes.length - offset - k) = bytes.length - offset by omega]
    have hnone : (range' offset k).filter (fun q => decide (StartsAt bytes q)) = [] := by
      rw [filter_eq_nil_iff]
      intro q hq
      obtain ⟨hle, hlt⟩ := mem_range'_1.mp hq
      simpa using h q hle hlt
    rw [startCodes, hsplit, filter_append, hnone, nil_append]
    rfl
  · have hempty : startCodes bytes offset = [] := by
      rw [startCodes, filter_eq_nil_iff]
      intro q hq
      obtain ⟨hle, hlt⟩ := mem_range'_1.mp hq
      simpa using h q hle (by omega)
    rw [hempty, startCodes, show bytes.length - (offset + k) = 0 by omega]
    rfl

theorem startCodes_here (h : StartsAt bytes q) :
    startCodes bytes q = q :: startCodes bytes (q + 3) := by
  have hlt := h.lt
  have hnext : startCodes bytes (q + 1) = startCodes bytes (q + 1 + 2) := by
    apply startCodes_skip
    rintro r hle hlt ⟨h0, h1, h2⟩
    -- 01 stands at the second of these two positions, and right after the first.
    rcases Nat.lt_or_eq_of_le hle with hgt | heq
    · rw [show r = q + 2 by omega, h.2.2] at h0
      cases h0
    · rw [← heq, h.2.2] at h1
      cases h1
  rw [← hnext, startCodes, show bytes.length - q = bytes.length - (q + 1) + 1 by omega,
    range'_succ, filter_cons, if_pos (decide_eq_true h)]
  rfl

theorem startCodes_end (h : bytes.length ≤ offset + 2) : startCodes bytes offset = [] := by
  rw [startCodes, filter_eq_nil_iff]
  intro q hq
  obtain ⟨hle, -⟩ := mem_range'_1.mp hq
  intro hstart
  have := (of_decide_eq_true hstart).lt
  omega

/-! ## Correctness -/

theorem tsaPesCheckStartCode_iff :
    tsaPesCheckStartCode m refs q = true ↔ StartsAt (pesBytes m refs) q := by
  rw [tsaPesCheckStartCode, decide_eq_true_iff, tsaPesCopyData_eq, startsAt_iff]

/-- Byte `i` of what is left of a packet. -/
theorem restAt_getElem (h : restAt m refs offset = some p) {i : Nat} (hi : i < p.length) :
    (pesBytes m refs)[offset + i]? = p[i]? := by
  have hspec := restAt_spec m refs offset
  rw [h] at hspec
  rw [hspec.2.2, getElem?_take, if_pos hi, getElem?_drop]

/-- No zero before place `k` of what is left of a packet: no start code begins there. -/
theorem no_start {k : Nat} (h : restAt m refs offset = some p) (hk : k ≤ p.length)
    (hzero : ∀ i < k, p[i]? ≠ some 0x00) :
    ∀ q, offset ≤ q → q < offset + k → ¬ StartsAt (pesBytes m refs) q := by
  rintro q hle hlt ⟨h0, -, -⟩
  have hget := restAt_getElem h (show q - offset < p.length by omega)
  rw [Nat.add_sub_cancel' hle, h0] at hget
  exact hzero (q - offset) (by omega) hget.symm

theorem mem_startCodes : q ∈ startCodes bytes offset ↔ offset ≤ q ∧ StartsAt bytes q := by
  rw [startCodes, mem_filter, mem_range'_1, decide_eq_true_iff]
  constructor
  · rintro ⟨⟨hle, -⟩, hstart⟩
    exact ⟨hle, hstart⟩
  · rintro ⟨hle, hstart⟩
    have := hstart.lt
    exact ⟨⟨hle, by omega⟩, hstart⟩

theorem handed_end (h : (pesBytes m refs).length ≤ q + 3) : handed m refs q = [] := by
  have hnone : restAt m refs (q + 3) = none := by
    have hspec := restAt_spec m refs (q + 3)
    cases hrest : restAt m refs (q + 3) with
    | none => rfl
    | some p =>
      rw [hrest] at hspec
      have := hspec.2.1
      omega
  have hoff : dataOff m refs q = q + 3 := by
    rw [dataOff, hnone]
    rfl
  rw [handed, hoff, hnone]
  rfl

theorem handed_none (h : (pesBytes m refs).length ≤ offset + 3) :
    (startCodes (pesBytes m refs) offset).flatMap (handed m refs) = [] := by
  rw [flatMap_eq_nil_iff]
  intro q hq
  obtain ⟨hle, -⟩ := mem_startCodes.mp hq
  exact handed_end (by omega)

/-- `memchr`: no zero before the one it finds. -/
theorem findIdx_before {k : Nat} (h : p.findIdx? (fun b => b == 0x00) = some k) :
    k ≤ p.length ∧ ∀ i < k, p[i]? ≠ some 0x00 := by
  obtain ⟨hlt, -, hbefore⟩ := findIdx?_eq_some_iff_getElem.mp h
  refine ⟨Nat.le_of_lt hlt, fun i hi hget => ?_⟩
  rw [getElem?_eq_getElem (by omega), Option.some.injEq] at hget
  exact hbefore i hi (by rw [hget]; rfl)

/-- **The scan finds every start code**, once and in order, however the PES is packetised. -/
theorem scan_eq (m : Memory) (refs : List PesRef) (offset : Nat) :
    scan m refs (pesBytes m refs).length offset =
      (startCodes (pesBytes m refs) offset).flatMap (handed m refs) := by
  fun_induction scan m refs (pesBytes m refs).length offset with
  | case1 offset hmore hrest =>
    have hspec := restAt_spec m refs offset
    rw [hrest] at hspec
    exact absurd (show (pesBytes m refs).length ≤ offset from hspec) (by omega)
  | case2 offset hmore p hrest hzero ih =>
    have hnone : ∀ i < p.length, p[i]? ≠ some 0x00 := by
      intro i hi hget
      have hall := findIdx?_eq_none_iff.mp hzero 0x00 (mem_of_getElem? hget)
      exact absurd hall (by decide)
    rw [ih, startCodes_skip (no_start hrest (Nat.le_refl _) hnone)]
  | case3 offset hmore p hrest k hzero hend =>
    obtain ⟨hk, hbefore⟩ := findIdx_before hzero
    rw [startCodes_skip (no_start hrest hk hbefore), startCodes_end (by omega)]
    rfl
  | case4 offset hmore p hrest k hzero hend hstart ih =>
    obtain ⟨hk, hbefore⟩ := findIdx_before hzero
    rw [ih, startCodes_skip (no_start hrest hk hbefore)]
    rw [startCodes_here (tsaPesCheckStartCode_iff.mp hstart), flatMap_cons]
  | case5 offset hmore p hrest k hzero hend hstart ih =>
    obtain ⟨hk, hbefore⟩ := findIdx_before hzero
    have hone : startCodes (pesBytes m refs) (offset + k) =
        startCodes (pesBytes m refs) (offset + k + 1) := by
      apply startCodes_skip
      intro q hle hlt hq
      rw [show q = offset + k by omega] at hq
      exact hstart (tsaPesCheckStartCode_iff.mpr hq)
    rw [ih, startCodes_skip (no_start hrest hk hbefore), hone]
  | case6 offset hend => exact (handed_none (by omega)).symm

variable {ph : PesHeader}

theorem length_of_pesHeader (h : pesHeader m refs = some ph) : 6 ≤ (pesBytes m refs).length := by
  by_contra hshort
  have hcopy : (tsaPesCopyData m refs 0 32).length < 6 := by
    rw [tsaPesCopyData_eq, drop_zero]
    exact Nat.lt_of_le_of_lt (length_take_le' 32 _) (by omega)
  rw [pesHeader, tsaParsePesHeader, if_pos (Or.inl hcopy)] at h
  cases h

variable {streamType : UInt8}

theorem sniffed_eq
    (hvideo : tsaIsH264 streamType ∨ tsaIsHevc streamType) (hph : pesHeader m refs = some ph) :
    sniffed streamType m refs =
      (startCodes (pesBytes m refs) ph.headerLen).flatMap (handed m refs) := by
  have hlen := length_of_pesHeader hph
  have hsome : ¬ (!tsaIsH264 streamType ∧ !tsaIsHevc streamType) := by
    rcases hvideo with h | h <;> simp [h]
  rw [sniffed, if_neg (by omega), hph]
  show (if _ then _ else _) = _
  rw [if_neg hsome, scan_eq]

/-- The bytes that directly follow each start code of an elementary stream. -/
def nalHeaders (es : List UInt8) : List UInt8 := (startCodes es 0).flatMap fun q => es[q + 3]?.toList

/-- The first bytes that the sniffer gets of an elementary stream in one piece. -/
def passedHeaders (es : List UInt8) : List UInt8 :=
  (startCodes es 0).flatMap fun q =>
    (if es[q + 3]? = some 0x01 then es[q + 4]? else es[q + 3]?).toList

theorem startCodes_drop (bytes : List UInt8) (h : Nat) :
    startCodes bytes h = (startCodes (bytes.drop h) 0).map (h + ·) := by
  have hstarts : ∀ q, StartsAt bytes (h + q) ↔ StartsAt (bytes.drop h) q := by
    intro q
    rw [StartsAt, StartsAt, getElem?_drop, getElem?_drop, getElem?_drop,
      Nat.add_assoc, Nat.add_assoc]
  have hrange : range' h (bytes.length - h) =
      (range' 0 (bytes.length - h)).map (h + ·) := by
    rw [map_add_range', Nat.add_zero]
  rw [startCodes, startCodes, length_drop, Nat.sub_zero, hrange, filter_map]
  simp only [Function.comp_def, hstarts]

theorem restAt_head (m : Memory) (refs : List PesRef) (offset : Nat) :
    (restAt m refs offset).bind head? = (pesBytes m refs)[offset]? := by
  have hspec := restAt_spec m refs offset
  cases hrest : restAt m refs offset with
  | none =>
    rw [hrest] at hspec
    rw [getElem?_eq_none hspec]
    rfl
  | some p =>
    have hfirst := restAt_getElem hrest (restAt_pos hrest)
    rw [Nat.add_zero] at hfirst
    rw [hfirst, Option.bind_some, head?_eq_getElem?]

theorem dataOff_eq (m : Memory) (refs : List PesRef) (q : Nat) :
    dataOff m refs q = if (pesBytes m refs)[q + 3]? = some 0x01 then q + 4 else q + 3 := by
  rw [dataOff, restAt_head]

theorem handed_head (m : Memory) (refs : List PesRef) (q : Nat) :
    (handed m refs q).filterMap head? = (pesBytes m refs)[dataOff m refs q]?.toList := by
  rw [← restAt_head, handed]
  cases restAt m refs (dataOff m refs q) with
  | none => rfl
  | some p =>
    rw [Option.toList_some, Option.bind_some, filterMap_cons, filterMap_nil]
    cases p.head? <;> rfl

theorem sniffed_heads
    (hvideo : tsaIsH264 streamType ∨ tsaIsHevc streamType) (hph : pesHeader m refs = some ph) :
    (sniffed streamType m refs).filterMap head? =
      passedHeaders ((pesBytes m refs).drop ph.headerLen) := by
  rw [sniffed_eq hvideo hph, filterMap_flatMap, startCodes_drop, flatMap_map,
    passedHeaders]
  apply flatMap_congr
  intro q _
  rw [handed_head, dataOff_eq, getElem?_drop, getElem?_drop, ← Nat.add_assoc,
    ← Nat.add_assoc]
  split <;> rfl

/-- **Every NAL unit is classified by its own header** exactly when every header byte 01 is followed
    by another 01: a header byte 01 is skipped, and the byte after it stands in for it. -/
theorem own_headers_iff (streamType : UInt8) (m : Memory) (refs : List PesRef) (ph : PesHeader)
    (hvideo : tsaIsH264 streamType ∨ tsaIsHevc streamType) (hph : pesHeader m refs = some ph) :
    (sniffed streamType m refs).filterMap head? =
        nalHeaders ((pesBytes m refs).drop ph.headerLen) ↔
      ∀ q, StartsAt ((pesBytes m refs).drop ph.headerLen) q →
        ((pesBytes m refs).drop ph.headerLen)[q + 3]? = some 0x01 →
          ((pesBytes m refs).drop ph.headerLen)[q + 4]? = some 0x01 := by
  rw [sniffed_heads hvideo hph, passedHeaders, nalHeaders, flatMap_eq_flatMap_iff]
  · constructor
    · intro h q hstart hone
      have heq := h q (mem_startCodes.mpr ⟨Nat.zero_le q, hstart⟩)
      rw [if_pos hone, hone] at heq
      exact Option.toList_eq_singleton_iff.mp heq
    · intro h q hq
      split
      · rename_i hone
        rw [h q (mem_startCodes.mp hq).2 hone, hone]
      · rfl
  · intro q _
    split
    · rename_i hone
      rw [hone]
      exact Option.length_toList_le
    · exact Nat.le_refl _

/-- A PES in one piece: the header of a video PES without time stamps, and an elementary stream. -/
def onePiece (es : List UInt8) : Memory × List PesRef :=
  let pes := [0x00, 0x00, 0x01, 0xE0, 0x00, 0x00, 0x80, 0x00, 0x00] ++ es
  (⟨fun i => pes.getD i 0, fun _ => 0⟩, [⟨.caller 0, 0, pes.length⟩])

/-- An SPS and, behind a start code of four bytes, an IDR slice. -/
def spsAndIdr : List UInt8 := [0x00, 0x00, 0x01, 0x67, 0x42, 0x00, 0x00, 0x00, 0x01, 0x65, 0x88]

/-- Header bytes 67 and 65. -/
theorem own_headers_sps_idr :
    pesHeader (onePiece spsAndIdr).1 (onePiece spsAndIdr).2 =
      some ⟨0xE0, false, false, 0, 0, 9⟩ ∧
    (sniffed 0x1b (onePiece spsAndIdr).1 (onePiece spsAndIdr).2).filterMap head? =
      nalHeaders spsAndIdr := by
  have hph : pesHeader (onePiece spsAndIdr).1 (onePiece spsAndIdr).2 =
      some ⟨0xE0, false, false, 0, 0, 9⟩ := by decide +kernel
  have hes : (pesBytes (onePiece spsAndIdr).1 (onePiece spsAndIdr).2).drop 9 = spsAndIdr := by
    decide +kernel
  have hnone : ∀ q ∈ startCodes spsAndIdr 0, spsAndIdr[q + 3]? ≠ some 0x01 := by decide +kernel
  have h := own_headers_iff 0x1b _ _ _ (Or.inl rfl) hph
  rw [hes] at h
  refine ⟨hph, h.mpr fun q hstart hone => ?_⟩
  exact absurd hone (hnone q (mem_startCodes.mpr ⟨Nat.zero_le q, hstart⟩))

/-- An H.264 slice with header byte 01 (`nal_ref_idc` 0, type 1): the sniffer gets its second byte. -/
theorem header_01_skipped :
    nalHeaders [0x00, 0x00, 0x01, 0x01, 0x9A, 0x20] = [0x01] ∧
    (sniffed 0x1b (onePiece [0x00, 0x00, 0x01, 0x01, 0x9A, 0x20]).1
      (onePiece [0x00, 0x00, 0x01, 0x01, 0x9A, 0x20]).2).filterMap head? = [0x9A] := by
  decide +kernel

end TsAnalyzer.Essence
