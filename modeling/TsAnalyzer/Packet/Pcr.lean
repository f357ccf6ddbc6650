/-
  Four recognisers of a PCR, each with its own guard on the length of the adaptation field:

    * the decoder        `af_len > 1`     (`src/tsa.c`; `af_len` is length + 1 in a `uint8_t`)
    * `tsa_pkt_get_pcr`  length ≥ 2       (`include/tsa_bitstream.h`)
    * the PCR engine     `af_len >= 6`    (`src/tsa_engine_pcr.c`)
    * the pacer          length ≥ 7       (`src/tsp.c`)

  Each is brought into one form (`…_iff`), and the ranges are then compared: only at lengths 7 to
  254 do all four agree on a flagged field.
-/
import TsAnalyzer.Packet.Decode

namespace TsAnalyzer.Packet

/-! ## The recognisers -/

def invalidPcr : Nat := 2 ^ 64 - 1

def pcrBase (p : Nat → UInt8) : Nat :=
  (p 6).toNat <<< 25 ||| (p 7).toNat <<< 17 ||| (p 8).toNat <<< 9 ||| (p 9).toNat <<< 1 |||
    (p 10).toNat >>> 7

def pcrExt (p : Nat → UInt8) : Nat := (p 10 &&& 0x01).toNat <<< 8 ||| (p 11).toNat

/-- The 27 MHz value. -/
def pcrTicks (p : Nat → UInt8) : Nat := pcrBase p * 300 + pcrExt p

def tsaPktGetPcr (p : Nat → UInt8) : Nat :=
  if p 0 ≠ 0x47 then invalidPcr
  else if p 3 &&& 0x20 = 0 ∨ p 4 < 2 then invalidPcr
  else if p 5 &&& 0x10 = 0 then invalidPcr
  else pcrTicks p

/-- The PCR that `pcr_on_ts` feeds to its track, given the decoder's result. -/
def pcrOnTs (p : Nat → UInt8) (res : DecodeResult) : Option Nat :=
  if 6 ≤ res.afLen ∧ p 5 &&& 0x10 ≠ 0 then some (pcrTicks p) else none

def tspHasPcr (p : Nat → UInt8) : Bool := p 3 &&& 0x20 ≠ 0 ∧ 7 ≤ p 4 ∧ p 5 &&& 0x10 ≠ 0

/-! ## One form for all -/

/-- The packet has an adaptation field whose PCR flag is set, where a field of some length has its
    flags. -/
def PcrFlagged (p : Nat → UInt8) : Prop := p 3 &&& 0x20 ≠ 0 ∧ p 5 &&& 0x10 ≠ 0
deriving Decidable

theorem adaptation_bit (b : UInt8) : (b >>> 4) &&& 0x02 ≠ 0 ↔ b &&& 0x20 ≠ 0 := by
  have h : ∀ b : UInt8, decide ((b >>> 4) &&& 0x02 ≠ 0) = decide (b &&& 0x20 ≠ 0) := by
    decide +kernel
  exact decide_eq_decide.mp (h b)

variable (p : Nat → UInt8)

/-- `af_len` is the field with its length byte, except that 255 wraps to nothing. -/
theorem afLenOf_ge_iff {n : Nat} (hn : 0 < n) (hn' : n ≤ 184) :
    n ≤ afLenOf p ↔ p 3 &&& 0x20 ≠ 0 ∧ n ≤ (p 4).toNat + 1 ∧ (p 4).toNat ≠ 255 := by
  have hbyte : (p 4).toNat < 256 := (p 4).toNat_lt
  unfold afLenOf
  split
  · rename_i haf
    rw [and_iff_right ((adaptation_bit _).mp haf)]
    omega
  · rename_i haf
    constructor
    · intro h
      omega
    · exact fun h => absurd ((adaptation_bit _).mpr h.1) haf

theorem decoder_iff (ph : PesHeader) :
    (tsaDecodePacketPure p ph).hasPcr = true ↔
      PcrFlagged p ∧ 1 ≤ (p 4).toNat ∧ (p 4).toNat ≠ 255 := by
  have hfield : (tsaDecodePacketPure p ph).hasPcr = decide (1 < afLenOf p ∧ p 5 &&& 0x10 ≠ 0) := by
    unfold tsaDecodePacketPure
    simp only
    split
    · split <;> rfl
    · rfl
  rw [hfield, decide_eq_true_eq, Nat.lt_iff_add_one_le,
    afLenOf_ge_iff p (by decide) (by decide), PcrFlagged]
  constructor
  · rintro ⟨⟨haf, hlen, hwrap⟩, hflag⟩
    exact ⟨⟨haf, hflag⟩, by omega, hwrap⟩
  · rintro ⟨⟨haf, hflag⟩, hlen, hwrap⟩
    exact ⟨⟨haf, by omega, hwrap⟩, hflag⟩

theorem byte_shifted (b : UInt8) {n k : Nat} (hn : n + 8 ≤ k) : b.toNat <<< n < 2 ^ k := by
  rw [Nat.shiftLeft_eq]
  calc b.toNat * 2 ^ n < 2 ^ 8 * 2 ^ n := Nat.mul_lt_mul_of_pos_right b.toNat_lt (by positivity)
    _ = 2 ^ (n + 8) := by rw [← pow_add, Nat.add_comm]
    _ ≤ 2 ^ k := Nat.pow_le_pow_right (by decide) hn

theorem pcrBase_lt : pcrBase p < 2 ^ 33 := by
  have hlow : (p 10).toNat >>> 7 < 2 ^ 33 := by
    rw [Nat.shiftRight_eq_div_pow]
    have := (p 10).toNat_lt
    omega
  refine Nat.or_lt_two_pow (Nat.or_lt_two_pow (Nat.or_lt_two_pow (Nat.or_lt_two_pow ?_ ?_) ?_) ?_)
    hlow
  all_goals exact byte_shifted _ (by decide)

theorem pcrExt_lt : pcrExt p < 2 ^ 16 := by
  refine Nat.or_lt_two_pow (byte_shifted _ (by decide)) ?_
  have := (p 11).toNat_lt
  omega

/-- No PCR is as large as `INVALID_PCR`. -/
theorem pcrTicks_ne_invalid : pcrTicks p ≠ invalidPcr := by
  have hbase := pcrBase_lt p
  have hext := pcrExt_lt p
  unfold pcrTicks invalidPcr
  omega

theorem getPcr_iff {p : Nat → UInt8} (hsync : p 0 = 0x47) :
    tsaPktGetPcr p ≠ invalidPcr ↔ PcrFlagged p ∧ 2 ≤ (p 4).toNat := by
  have hlt : p 4 < 2 ↔ (p 4).toNat < 2 := UInt8.lt_iff_toNat_lt
  unfold tsaPktGetPcr PcrFlagged
  rw [if_neg (fun h => h hsync)]
  split
  · rename_i hno
    refine iff_of_false (fun h => h rfl) ?_
    rintro ⟨⟨haf, -⟩, hlen⟩
    rcases hno with h | h
    · exact haf h
    · have := hlt.mp h
      omega
  · rename_i hyes
    split
    · rename_i hflag
      exact iff_of_false (fun h => h rfl) fun h => h.1.2 hflag
    · rename_i hflag
      refine iff_of_true (pcrTicks_ne_invalid p) ⟨⟨fun h => hyes (.inl h), hflag⟩, ?_⟩
      by_contra hshort
      exact hyes (.inr (hlt.mpr (by omega)))

theorem engine_iff (ph : PesHeader) :
    (pcrOnTs p (tsaDecodePacketPure p ph)).isSome = true ↔
      PcrFlagged p ∧ 5 ≤ (p 4).toNat ∧ (p 4).toNat ≠ 255 := by
  have hlen := afLenOf_ge_iff p (n := 6) (by decide) (by decide)
  unfold pcrOnTs
  rw [(tsaDecodePacketPure_describes p ph).afLen]
  split
  · rename_i h
    obtain ⟨haf, h6, hwrap⟩ := hlen.mp h.1
    exact iff_of_true rfl ⟨⟨haf, h.2⟩, by omega, hwrap⟩
  · rename_i h
    refine iff_of_false Bool.false_ne_true ?_
    rintro ⟨⟨haf, hflag⟩, h5, hwrap⟩
    exact h ⟨hlen.mpr ⟨haf, by omega, hwrap⟩, hflag⟩

theorem pacer_iff : tspHasPcr p = true ↔ PcrFlagged p ∧ 7 ≤ (p 4).toNat := by
  have hle : 7 ≤ p 4 ↔ 7 ≤ (p 4).toNat := UInt8.le_iff_toNat_le
  unfold tspHasPcr PcrFlagged
  rw [decide_eq_true_eq, hle]
  exact ⟨fun h => ⟨⟨h.1, h.2.2⟩, h.2.1⟩, fun h => ⟨h.1.1, h.2, h.1.2⟩⟩

/-! ## Agreement -/

/-- All four see a PCR, or none does; and the values read are the same (the pacer's is
    `tsa_pkt_get_pcr`'s). -/
structure PcrAgree (p : Nat → UInt8) (ph : PesHeader) : Prop where
  getPcr : tsaPktGetPcr p ≠ invalidPcr ↔ (tsaDecodePacketPure p ph).hasPcr = true
  engine : (pcrOnTs p (tsaDecodePacketPure p ph)).isSome = true ↔
    (tsaDecodePacketPure p ph).hasPcr = true
  pacer : tspHasPcr p = true ↔ (tsaDecodePacketPure p ph).hasPcr = true
  value : ∀ ticks, pcrOnTs p (tsaDecodePacketPure p ph) = some ticks → tsaPktGetPcr p = ticks

/-- Where the engine and `tsa_pkt_get_pcr` both read a value, it is the same. -/
theorem pcr_value {p : Nat → UInt8} {res : DecodeResult} {ticks : Nat}
    (hget : tsaPktGetPcr p ≠ invalidPcr) (hengine : pcrOnTs p res = some ticks) :
    tsaPktGetPcr p = ticks := by
  unfold pcrOnTs at hengine
  split at hengine
  · cases hengine
    unfold tsaPktGetPcr at hget ⊢
    split at hget
    · exact absurd rfl hget
    split at hget
    · exact absurd rfl hget
    split at hget
    · exact absurd rfl hget
    · rename_i h1 h2 h3
      rw [if_neg h1, if_neg h2, if_neg h3]
  · cases hengine

/-- **The four recognisers agree, exactly where they do**: where there is no PCR flag to see, or the
    length of the adaptation field is 0 or from 7 to 254. -/
theorem pcr_agree_iff (p : Nat → UInt8) (ph : PesHeader) (hsync : p 0 = 0x47) :
    PcrAgree p ph ↔ (PcrFlagged p → (p 4).toNat = 0 ∨ 7 ≤ (p 4).toNat ∧ (p 4).toNat ≤ 254) := by
  have hbyte : (p 4).toNat < 256 := (p 4).toNat_lt
  constructor
  · rintro ⟨hget, hengine, hpacer, -⟩ hflag
    rw [getPcr_iff hsync, decoder_iff, and_congr_right_iff] at hget
    rw [pacer_iff, decoder_iff, and_congr_right_iff] at hpacer
    have h1 := hget hflag
    have h2 := hpacer hflag
    omega
  · intro h
    have hlen : PcrFlagged p → ∀ n, 1 ≤ n → n ≤ 7 → (n ≤ (p 4).toNat ↔ 1 ≤ (p 4).toNat) ∧
        (p 4).toNat ≠ 255 := by
      intro hflag n h1 h7
      have := h hflag
      omega
    refine ⟨?_, ?_, ?_, ?_⟩
    · rw [getPcr_iff hsync, decoder_iff]
      refine and_congr_right fun hflag => ?_
      have := hlen hflag 2 (by decide) (by decide)
      omega
    · rw [engine_iff, decoder_iff]
      refine and_congr_right fun hflag => ?_
      have := hlen hflag 5 (by decide) (by decide)
      omega
    · rw [pacer_iff, decoder_iff]
      refine and_congr_right fun hflag => ?_
      have := hlen hflag 7 (by decide) (by decide)
      omega
    · intro ticks hticks
      refine pcr_value ?_ hticks
      have hengine := (engine_iff p ph).mp (by rw [hticks]; rfl)
      exact (getPcr_iff hsync).mpr ⟨hengine.1, by omega⟩

/-- A packet with an adaptation field of the given length, and its PCR flag set. -/
def pcrPacket (length : UInt8) (i : Nat) : UInt8 :=
  [0x47, 0x01, 0x00, 0x20, length, 0x10, 0x12, 0x34, 0x56, 0x78, 0x80, 0x2A].getD i 0xFF

/-- Where the standard's PCR packets are, all four agree. -/
theorem full_field_agrees :
    pcrPacket 183 0 = 0x47 ∧ PcrAgree (pcrPacket 183) ⟨0, false, false, 0, 0, 0⟩ :=
  ⟨rfl, (pcr_agree_iff _ _ rfl).2 fun _ => by decide⟩

/-- A field of length 1 has a PCR for the decoder alone; one of length 6 has one for all but the
    pacer; and a length of 255 hides it from the decoder and the engine. -/
theorem short_fields_disagree :
    (tsaDecodePacketPure (pcrPacket 1) ⟨0, false, false, 0, 0, 0⟩).hasPcr = true ∧
    tsaPktGetPcr (pcrPacket 1) = invalidPcr ∧
    (tsaDecodePacketPure (pcrPacket 6) ⟨0, false, false, 0, 0, 0⟩).hasPcr = true ∧
    tspHasPcr (pcrPacket 6) = false ∧
    (tsaDecodePacketPure (pcrPacket 255) ⟨0, false, false, 0, 0, 0⟩).hasPcr = false ∧
    tspHasPcr (pcrPacket 255) = true := by
  decide +kernel

end TsAnalyzer.Packet
