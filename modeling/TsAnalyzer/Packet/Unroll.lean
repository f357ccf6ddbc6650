/-
  Time stamps past the 33-bit clock: `tsa_recover_pts_64` as a function of TRUE times.

  The unroll state that stands for a true time `L` is `unrolledTo L`: its residue, and the rollovers
  below it.  From there a coded value is taken to the true time within half a period of `L`
  (`recover_near`); the first time stamp is below 2^33 (`recover_first`).

  The second half reads the coded values off a packet: `StartsPes`, `CarriesPts`, `codedPts` and
  `codedDts` are the fields of `tsa_parse_pes_header` that do not depend on what lies on its stack.
-/
import TsAnalyzer.Packet.Decode

namespace TsAnalyzer.Packet

/-! ## Recovering true times -/

/-- The unroll state that stands for the true time `L`. -/
def unrolledTo (L : Nat) : PtsUnroll := ⟨L % 2 ^ 33, L - L % 2 ^ 33⟩

/-- Less than half a clock period apart. -/
def Near (s t : Nat) : Prop := s < t + 2 ^ 32 ∧ t < s + 2 ^ 32
deriving Decidable

theorem recover_first {T offset : Nat} (hT : T < 2 ^ 33) :
    tsaRecoverPts64 ⟨noPts, offset⟩ (T % 2 ^ 33) = (unrolledTo T, T) := by
  have hmod : T % 2 ^ 33 = T := Nat.mod_eq_of_lt hT
  rw [tsaRecoverPts64, if_pos rfl, hmod, unrolledTo, hmod, Nat.sub_self]

/-- **Half a period decides**: the residues are more than that apart exactly when a rollover lies
    between the times. -/
theorem rolloverOffset_near {L T : Nat} (hnear : Near T L) (hT : T < 2 ^ 64) :
    rolloverOffset (L % 2 ^ 33) (L - L % 2 ^ 33) (T % 2 ^ 33) = T - T % 2 ^ 33 := by
  obtain ⟨h1, h2⟩ := hnear
  unfold rolloverOffset
  split
  · omega
  · split <;> omega

theorem recover_near {L T : Nat} (hseen : L % 2 ^ 33 ≠ noPts) (hnear : Near T L)
    (hT : T < 2 ^ 64) : tsaRecoverPts64 (unrolledTo L) (T % 2 ^ 33) = (unrolledTo T, T) := by
  have hoffset := rolloverOffset_near hnear hT
  have hsum : (T % 2 ^ 33 + (T - T % 2 ^ 33)) % 2 ^ 64 = T := by omega
  rw [tsaRecoverPts64, if_neg (show ¬ (unrolledTo L).lastPts33 = noPts from hseen)]
  simp only [unrolledTo]
  rw [hoffset, hsum]

/-- Below the first rollover, a coded value counts a rollover only from more than half a period
    below. -/
theorem recover_offset {T d : Nat} (hT : T < 2 ^ 33) (hseen : T ≠ noPts) (hd : T ≤ d + 2 ^ 32) :
    (tsaRecoverPts64 (unrolledTo T) d).1.ptsRolloverOffset = 0 := by
  have hmod : T % 2 ^ 33 = T := Nat.mod_eq_of_lt hT
  rw [unrolledTo, hmod, Nat.sub_self, tsaRecoverPts64, if_neg hseen]
  show rolloverOffset T 0 d = 0
  rw [rolloverOffset, if_neg (by omega), if_neg (by omega)]

/-! ## The coded time stamps of a packet -/

def payloadByte (p : Nat → UInt8) (i : Nat) : UInt8 := p (4 + afLenOf p + i)

/-- The packet starts a PES with a header `tsa_parse_pes_header` accepts. -/
def StartsPes (p : Nat → UInt8) : Prop :=
  pusiOf p ∧ pesStart p ∧ 6 ≤ payloadLenOf p ∧
    (payloadByte p 3 ∈ plainStreamIds ∨ 9 ≤ payloadLenOf p)
deriving Decidable

/-- The PTS flag is set, and the PTS lies within the packet. -/
def CarriesPts (p : Nat → UInt8) : Prop :=
  payloadByte p 3 ∉ plainStreamIds ∧ payloadByte p 7 &&& 0x80 ≠ 0 ∧ 14 ≤ payloadLenOf p
deriving Decidable

def codedPts (p : Nat → UInt8) : Nat := timestamp (payloadByte p) 9

/-- The coded DTS; the PTS stands in for it where there is none. -/
def codedDts (p : Nat → UInt8) : Nat :=
  if payloadByte p 7 &&& 0x40 ≠ 0 ∧ 19 ≤ payloadLenOf p then timestamp (payloadByte p) 14
  else codedPts p

variable {p : Nat → UInt8}

/-- The header of `tsa_parse_pes_header`, for a packet that starts a PES. -/
theorem parse_isSome_iff (hstart : pesStart p) (ph : PesHeader) :
    (tsaParsePesHeader (payloadByte p) (payloadLenOf p) ph).isSome ↔
      6 ≤ payloadLenOf p ∧ (payloadByte p 3 ∈ plainStreamIds ∨ 9 ≤ payloadLenOf p) := by
  obtain ⟨hlen, h0, h1, h2⟩ := of_decide_eq_true hstart
  have hcode : ¬ (payloadByte p 0 ≠ 0 ∨ payloadByte p 1 ≠ 0 ∨ payloadByte p 2 ≠ 1) := by
    simp only [payloadByte, Nat.add_zero, h0, h1, h2, ne_eq, not_true, or_self, not_false_eq_true]
  rw [tsaParsePesHeader]
  by_cases h6 : payloadLenOf p < 6
  · rw [if_pos (.inl h6)]
    simp only [Option.isSome_none]
    constructor
    · intro h; cases h
    · intro h; omega
  · rw [if_neg (fun h => h.elim h6 hcode)]
    by_cases hplain : payloadByte p 3 ∈ plainStreamIds
    · rw [if_pos hplain]
      exact ⟨fun _ => ⟨by omega, .inl hplain⟩, fun _ => rfl⟩
    · rw [if_neg hplain]
      by_cases h9 : payloadLenOf p < 9
      · rw [if_pos h9]
        simp only [Option.isSome_none]
        constructor
        · intro h; cases h
        · rintro ⟨-, h | h⟩
          · exact absurd h hplain
          · omega
      · rw [if_neg h9]
        constructor
        · exact fun _ => ⟨by omega, .inr (by omega)⟩
        · intro _
          simp only
          split <;> rfl

theorem parse_stamps (hstart : pesStart p) (hpts : CarriesPts p)
    (ph : PesHeader) : ∃ h, tsaParsePesHeader (payloadByte p) (payloadLenOf p) ph = some h ∧
      h.pts = codedPts p ∧ h.dts = codedDts p := by
  obtain ⟨-, h0, h1, h2⟩ := of_decide_eq_true hstart
  obtain ⟨hid, hflag, hlen⟩ := hpts
  have hcode : ¬ (payloadLenOf p < 6 ∨ payloadByte p 0 ≠ 0 ∨ payloadByte p 1 ≠ 0 ∨
      payloadByte p 2 ≠ 1) := by
    rintro (h | h | h | h)
    · omega
    · exact h h0
    · exact h h1
    · exact h h2
  rw [tsaParsePesHeader, if_neg hcode, if_neg hid, if_neg (by omega)]
  simp only
  rw [if_pos (by simpa using ⟨hflag, hlen⟩)]
  refine ⟨_, rfl, rfl, ?_⟩
  simp only [codedDts, codedPts]

theorem payloadLenOf_pos_of_pesStart (hstart : pesStart p) : 0 < payloadLenOf p := by
  have := (of_decide_eq_true hstart).1
  omega

theorem tsaDecodePacketPure_parsed
    (hstart : pusiOf p = true ∧ 0 < payloadLenOf p ∧ pesStart p = true) {ph : PesHeader}
    {parsed : Option PesHeader}
    (hp : tsaParsePesHeader (payloadByte p) (payloadLenOf p) ph = parsed) :
    (tsaDecodePacketPure p ph).hasPesHeader = parsed.isSome ∧
      ∀ h, parsed = some h → (tsaDecodePacketPure p ph).pts = h.pts ∧
        (tsaDecodePacketPure p ph).dts = h.dts := by
  have hp' : tsaParsePesHeader (fun i => p (4 + afLenOf p + i)) (payloadLenOf p) ph = parsed := hp
  unfold tsaDecodePacketPure
  simp only
  rw [if_pos hstart, hp']
  cases parsed with
  | none => exact ⟨rfl, fun _ h => by cases h⟩
  | some h => exact ⟨rfl, fun _ h' => by cases h'; exact ⟨rfl, rfl⟩⟩

theorem tsaDecodePacketPure_hasPesHeader (p : Nat → UInt8) (ph : PesHeader) :
    (tsaDecodePacketPure p ph).hasPesHeader = true ↔ StartsPes p := by
  by_cases hstart : pusiOf p = true ∧ 0 < payloadLenOf p ∧ pesStart p = true
  · rw [(tsaDecodePacketPure_parsed hstart rfl).1, parse_isSome_iff hstart.2.2 ph, StartsPes]
    exact ⟨fun h => ⟨hstart.1, hstart.2.2, h.1, h.2⟩, fun h => ⟨h.2.2.1, h.2.2.2⟩⟩
  · unfold tsaDecodePacketPure
    simp only
    rw [if_neg hstart]
    constructor
    · intro h
      cases h
    · exact fun h => absurd ⟨h.1, payloadLenOf_pos_of_pesStart h.2.1, h.2.1⟩ hstart

theorem tsaDecodePacketPure_stamps (hpes : StartsPes p) (hpts : CarriesPts p)
    (ph : PesHeader) : (tsaDecodePacketPure p ph).pts = codedPts p ∧
      (tsaDecodePacketPure p ph).dts = codedDts p := by
  obtain ⟨hpusi, hstart, -, -⟩ := hpes
  obtain ⟨h, hparse, h1, h2⟩ := parse_stamps hstart hpts ph
  rw [← h1, ← h2]
  exact (tsaDecodePacketPure_parsed ⟨hpusi, payloadLenOf_pos_of_pesStart hstart, hstart⟩
    hparse).2 h rfl

/-- `tsa_decode_packet` on a PES header with PTS: PTS, then DTS, go through the unroll state. -/
theorem tsaDecodePacket_pes (hpes : StartsPes p) (hpts : CarriesPts p)
    (ph : PesHeader) (u : PtsUnroll) :
    (tsaDecodePacket p ph u).1.hasPesHeader = true ∧
    (tsaDecodePacket p ph u).1.pts = (tsaRecoverPts64 u (codedPts p)).2 ∧
    (tsaDecodePacket p ph u).2 =
      (tsaRecoverPts64 (tsaRecoverPts64 u (codedPts p)).1 (codedDts p)).1 := by
  have hheader := (tsaDecodePacketPure_hasPesHeader p ph).mpr hpes
  obtain ⟨h1, h2⟩ := tsaDecodePacketPure_stamps hpes hpts ph
  unfold tsaDecodePacket
  simp only
  rw [if_pos hheader, h1, h2]
  exact ⟨hheader, rfl, rfl⟩

theorem tsaDecodePacket_no_pes (hpes : ¬ StartsPes p) (ph : PesHeader) (u : PtsUnroll) :
    (tsaDecodePacket p ph u).1.hasPesHeader = false ∧ (tsaDecodePacket p ph u).2 = u := by
  have hheader : ¬ (tsaDecodePacketPure p ph).hasPesHeader = true :=
    fun h => hpes ((tsaDecodePacketPure_hasPesHeader p ph).mp h)
  unfold tsaDecodePacket
  simp only
  rw [if_neg hheader]
  exact ⟨Bool.eq_false_iff.mpr hheader, rfl⟩

end TsAnalyzer.Packet
