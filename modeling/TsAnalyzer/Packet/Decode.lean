/-
  Packet decoding (`tsa_decode_packet` in `src/tsa.c`, `tsa_parse_pes_header` in `src/tsa_utils.c`).

  A packet is read through its pointer, so it is a function `p : Nat → UInt8` here; the decoder
  looks at `p[0 .. 188)` only.

  * `tsa_parse_pes_header` leaves the fields of its out-parameter UNSET on several paths (no PTS
    flag, a header cut by the end of the packet); the caller's uninitialised structure is therefore
    an argument, and its values survive where the source does not write.
  * `uint8_t` assignments are reduced modulo 256: an adaptation field length of 255 becomes 0.
-/
import Mathlib

namespace TsAnalyzer.Packet

/-! ## The PES header -/

structure PesHeader where
  streamId : UInt8
  hasPts : Bool
  hasDts : Bool
  pts : Nat
  dts : Nat
  headerLen : Nat
  deriving DecidableEq

/-- The five bytes of a coded time stamp at `p[i .. i + 5)`. -/
def timestamp (p : Nat → UInt8) (i : Nat) : Nat :=
  (p i &&& 0x0E).toNat <<< 29 ||| (p (i + 1)).toNat <<< 22 ||| (p (i + 2) &&& 0xFE).toNat <<< 14 |||
    (p (i + 3)).toNat <<< 7 ||| (p (i + 4)).toNat >>> 1

/-- The stream ids without an optional PES header. -/
def plainStreamIds : List UInt8 := [0xBC, 0xBE, 0xBF, 0xF0, 0xF1, 0xFF, 0xF2, 0xF8]

/-- `tsa_parse_pes_header` on the first `len` bytes of `p`; `none` is its `-1`. -/
def tsaParsePesHeader (p : Nat → UInt8) (len : Nat) (h : PesHeader) : Option PesHeader :=
  if len < 6 ∨ p 0 ≠ 0 ∨ p 1 ≠ 0 ∨ p 2 ≠ 1 then none
  else if p 3 ∈ plainStreamIds then
    some { h with streamId := p 3, hasPts := false, hasDts := false, headerLen := 6 }
  else if len < 9 then none
  else
    let hasPts := p 7 &&& 0x80 ≠ 0
    let hasDts := p 7 &&& 0x40 ≠ 0
    let h1 := { h with streamId := p 3, hasPts := hasPts, hasDts := hasDts
                       headerLen := 9 + (p 8).toNat }
    if hasPts ∧ 14 ≤ len then
      let pts := timestamp p 9
      some { h1 with pts := pts, dts := if hasDts ∧ 19 ≤ len then timestamp p 14 else pts }
    else some h1

/-! ## The packet header -/

structure DecodeResult where
  pid : Nat
  pusi : Bool
  afLen : Nat
  hasPayload : Bool
  hasPcr : Bool
  payloadLen : Nat
  cc : Nat
  scrambled : Bool
  hasDiscontinuity : Bool
  hasPesHeader : Bool
  hasPts : Bool
  hasDts : Bool
  pts : Nat
  dts : Nat
  deriving DecidableEq

def pidOf (p : Nat → UInt8) : Nat := (p 1 &&& 0x1F).toNat <<< 8 ||| (p 2).toNat

def afLenOf (p : Nat → UInt8) : Nat :=
  if (p 3 >>> 4) &&& 0x02 ≠ 0 then min (((p 4).toNat + 1) % 256) 184 else 0

def payloadLenOf (p : Nat → UInt8) : Nat :=
  if (p 3 >>> 4) &&& 0x01 ≠ 0 then 184 - afLenOf p else 0

def pusiOf (p : Nat → UInt8) : Bool := p 1 &&& 0x40 ≠ 0

def discontinuityOf (p : Nat → UInt8) : Bool := 1 < afLenOf p ∧ p 5 &&& 0x80 ≠ 0

/-- The payload starts with the PES start code `00 00 01`. -/
def pesStart (p : Nat → UInt8) : Bool :=
  3 ≤ payloadLenOf p ∧ p (4 + afLenOf p) = 0 ∧ p (4 + afLenOf p + 1) = 0 ∧ p (4 + afLenOf p + 2) = 1

/-- `tsa_decode_packet_pure`, without its PES_ERROR event; `ph` is the uninitialised
    `tsa_pes_header_t` on its stack. -/
def tsaDecodePacketPure (p : Nat → UInt8) (ph : PesHeader) : DecodeResult :=
  let pusi := pusiOf p
  let afLen := afLenOf p
  let payloadLen := payloadLenOf p
  let r : DecodeResult :=
    { pid := pidOf p
      pusi := pusi
      afLen := afLen
      hasPayload := 0 < payloadLen
      hasPcr := 1 < afLen ∧ p 5 &&& 0x10 ≠ 0
      payloadLen := payloadLen
      cc := (p 3 &&& 0x0F).toNat
      scrambled := p 3 &&& 0xC0 ≠ 0
      hasDiscontinuity := discontinuityOf p
      hasPesHeader := false, hasPts := false, hasDts := false, pts := 0, dts := 0 }
  if pusi ∧ 0 < payloadLen ∧ pesStart p then
    match tsaParsePesHeader (fun i => p (4 + afLen + i)) payloadLen ph with
    | some h => { r with hasPesHeader := true, hasPts := h.hasPts, hasDts := h.hasDts
                         pts := h.pts, dts := h.dts }
    | none => r
  else r

/-- A unit start whose payload does not start with the PES start code: the condition of the
    PES_ERROR event, as far as the packet decides it. -/
def pesStartMissing (p : Nat → UInt8) : Bool :=
  pusiOf p ∧ 3 ≤ payloadLenOf p ∧ ¬ pesStart p

/-! ## Time stamps -/

/-- The unroll state of a track: `pes.last_pts_33` and `pts_rollover_offset`. -/
structure PtsUnroll where
  lastPts33 : Nat
  ptsRolloverOffset : Nat
  deriving DecidableEq

/-- The value `tsa_create` puts into `last_pts_33`: no time stamp seen yet. -/
def noPts : Nat := 0x1FFFFFFFF

/-- The new `pts_rollover_offset`: a step down by more than half a period is a rollover, a step up
    by as much takes one back. -/
def rolloverOffset (last offset pts33 : Nat) : Nat :=
  if pts33 < last ∧ 0x100000000 < last - pts33 then (offset + 0x200000000) % 2 ^ 64
  else if last < pts33 ∧ 0x100000000 < pts33 - last ∧ 0x200000000 ≤ offset then offset - 0x200000000
  else offset

/-- `tsa_recover_pts_64`: the 64-bit time stamp, and the track's new unroll state. -/
def tsaRecoverPts64 (u : PtsUnroll) (pts33 : Nat) : PtsUnroll × Nat :=
  if u.lastPts33 = noPts then (⟨pts33, 0⟩, pts33)
  else
    let offset := rolloverOffset u.lastPts33 u.ptsRolloverOffset pts33
    (⟨pts33, offset⟩, (pts33 + offset) % 2 ^ 64)

/-- `tsa_decode_packet`: PTS and DTS of a PES header both pass through the track's unroll state. -/
def tsaDecodePacket (p : Nat → UInt8) (ph : PesHeader) (u : PtsUnroll) : DecodeResult × PtsUnroll :=
  let r := tsaDecodePacketPure p ph
  if r.hasPesHeader then
    let a := tsaRecoverPts64 u r.pts
    let b := tsaRecoverPts64 a.1 r.dts
    ({ r with pts := a.2, dts := b.2 }, b.1)
  else (r, u)

/-! ## What a result says of its packet -/

/-- What a result says of the packet apart from its PES header. -/
structure DecodeResult.Describes (r : DecodeResult) (p : Nat → UInt8) : Prop where
  pid : r.pid = pidOf p
  pusi : r.pusi = pusiOf p
  afLen : r.afLen = afLenOf p
  payloadLen : r.payloadLen = payloadLenOf p
  hasPayload : r.hasPayload = decide (0 < payloadLenOf p)
  hasDiscontinuity : r.hasDiscontinuity = discontinuityOf p

variable (p : Nat → UInt8)

theorem tsaDecodePacketPure_describes (ph : PesHeader) :
    (tsaDecodePacketPure p ph).Describes p := by
  unfold tsaDecodePacketPure
  simp only
  split
  · split <;> exact ⟨rfl, rfl, rfl, rfl, rfl, rfl⟩
  · exact ⟨rfl, rfl, rfl, rfl, rfl, rfl⟩

theorem tsaDecodePacket_describes (ph : PesHeader) (u : PtsUnroll) :
    (tsaDecodePacket p ph u).1.Describes p := by
  have h := tsaDecodePacketPure_describes p ph
  unfold tsaDecodePacket
  simp only
  split
  · exact ⟨h.pid, h.pusi, h.afLen, h.payloadLen, h.hasPayload, h.hasDiscontinuity⟩
  · exact h

/-! ## Ranges -/

theorem afLenOf_le : afLenOf p ≤ 184 := by
  unfold afLenOf
  split
  · exact Nat.min_le_right _ _
  · exact Nat.zero_le _

theorem payloadLenOf_le : afLenOf p + payloadLenOf p ≤ 184 := by
  have h := afLenOf_le p
  unfold payloadLenOf
  split <;> omega

end TsAnalyzer.Packet
