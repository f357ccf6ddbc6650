/-
  `tsa_recover_pts_64` on its own, and what it is fed where there is nothing to recover.

  **Recovery** — a sequence of true times, each less than half a period from the one before, is
  recovered from its residues unless a residue equals the marker of an unset state (2^33 - 1, a
  legal time stamp) or a time does not fit 64 bits (`recovered_iff`).
-/
import TsAnalyzer.Lib.Run
import TsAnalyzer.Packet.Unroll

namespace TsAnalyzer.Packet

open Lib List

/-! ## Recovery -/

/-- `tsa_recover_pts_64`, with the time it returns as its output. -/
def recoverPush (u : PtsUnroll) (pts33 : Nat) : PtsUnroll × List Nat :=
  ((tsaRecoverPts64 u pts33).1, [(tsaRecoverPts64 u pts33).2])

/-- The unroll state of a track after `tsa_create`. -/
def freshUnroll : PtsUnroll := ⟨noPts, 0⟩

/-- What `T` must satisfy to be recovered right after `L`. -/
def Recoverable (L T : Nat) : Prop := T < 2 ^ 64 ∧ (L % 2 ^ 33 = noPts → T < 2 ^ 33)
deriving Decidable

theorem tsaRecoverPts64_lt (u : PtsUnroll) {pts33 : Nat} (h : pts33 < 2 ^ 33) :
    (tsaRecoverPts64 u pts33).2 < 2 ^ 64 := by
  unfold tsaRecoverPts64
  split
  · show pts33 < 2 ^ 64
    omega
  · exact Nat.mod_lt _ (by decide)

theorem recover_marked {L : Nat} (hmark : L % 2 ^ 33 = noPts) (pts33 : Nat) :
    tsaRecoverPts64 (unrolledTo L) pts33 = (⟨pts33, 0⟩, pts33) :=
  if_pos hmark

/-- One step from the state that stands for `L`. -/
theorem recover_next_iff {L T : Nat} (hnear : Near T L) :
    (tsaRecoverPts64 (unrolledTo L) (T % 2 ^ 33)).2 = T ↔ Recoverable L T := by
  by_cases hmark : L % 2 ^ 33 = noPts
  · rw [recover_marked hmark]
    show T % 2 ^ 33 = T ↔ _
    constructor
    · intro h
      exact ⟨by omega, fun _ => by omega⟩
    · intro h
      have hT := h.2 hmark
      omega
  · constructor
    · intro h
      have hlt := tsaRecoverPts64_lt (unrolledTo L) (Nat.mod_lt T (show 0 < 2 ^ 33 by decide))
      rw [h] at hlt
      exact ⟨hlt, fun h => absurd h hmark⟩
    · intro h
      rw [recover_near hmark hnear h.1]

theorem recover_next_state {L T : Nat} (hnear : Near T L) (h : Recoverable L T) :
    (tsaRecoverPts64 (unrolledTo L) (T % 2 ^ 33)).1 = unrolledTo T := by
  by_cases hmark : L % 2 ^ 33 = noPts
  · have hT := h.2 hmark
    have hmod : T % 2 ^ 33 = T := Nat.mod_eq_of_lt hT
    rw [recover_marked hmark, unrolledTo, hmod, Nat.sub_self]
  · rw [recover_near hmark hnear h.1]

/-- The times after `L`, from the state that stands for it. -/
theorem recovered_after_iff (times : List Nat) (L : Nat) (hnear : (L :: times).IsChain Near) :
    (run recoverPush (unrolledTo L) (times.map (· % 2 ^ 33))).2 = times ↔
      (L :: times).IsChain Recoverable := by
  induction times generalizing L with
  | nil => exact iff_of_true rfl (isChain_singleton L)
  | cons T times ih =>
    rw [isChain_cons_cons] at hnear ⊢
    obtain ⟨hLT, hrest⟩ := hnear
    have hTL : Near T L := ⟨hLT.2, hLT.1⟩
    rw [map_cons, run]
    show [(tsaRecoverPts64 (unrolledTo L) (T % 2 ^ 33)).2] ++ _ = _ ↔ _
    rw [singleton_append, List.cons.injEq, recover_next_iff hTL]
    refine and_congr_right fun hrec => ?_
    show (run recoverPush (tsaRecoverPts64 (unrolledTo L) (T % 2 ^ 33)).1 _).2 = _ ↔ _
    rw [recover_next_state hTL hrec]
    exact ih T hrest

/-- **`tsa_recover_pts_64` inverts the 33-bit coding, exactly where it does**: from the state of a
    new track the true times come back iff all of them fit 64 bits, and a time whose residue is the
    marker 2^33 - 1 is followed by one below 2^33. -/
theorem recovered_iff (T : Nat) (times : List Nat) (hfirst : T < 2 ^ 33)
    (hnear : (T :: times).IsChain Near) :
    (run recoverPush freshUnroll ((T :: times).map (· % 2 ^ 33))).2 = T :: times ↔
      (T :: times).IsChain Recoverable := by
  have hstart : tsaRecoverPts64 freshUnroll (T % 2 ^ 33) = (unrolledTo T, T) := recover_first hfirst
  rw [map_cons, run]
  show [(tsaRecoverPts64 freshUnroll (T % 2 ^ 33)).2] ++
    (run recoverPush (tsaRecoverPts64 freshUnroll (T % 2 ^ 33)).1 _).2 = _ ↔ _
  rw [hstart, singleton_append, List.cons.injEq, and_iff_right rfl]
  exact recovered_after_iff times T hnear

/-- Over a rollover and back. -/
theorem recovered_over_rollover :
    [8589930000, 8589940000, 8589930000].IsChain Near ∧
      (run recoverPush freshUnroll ([8589930000, 8589940000, 8589930000].map (· % 2 ^ 33))).2 =
        [8589930000, 8589940000, 8589930000] := by
  have hnear : [8589930000, 8589940000, 8589930000].IsChain Near := by decide
  exact ⟨hnear, (recovered_iff _ _ (by decide) hnear).2 (by decide)⟩

/-- 2^33 - 1 is a time like any other, but the next one is then taken for the first. -/
theorem marker_forgets_rollover :
    [2 ^ 33 - 1, 2 ^ 33 + 3599].IsChain Near ∧
      (run recoverPush freshUnroll ([2 ^ 33 - 1, 2 ^ 33 + 3599].map (· % 2 ^ 33))).2 =
        [2 ^ 33 - 1, 3599] := by
  decide

/-! ## Nothing to recover -/

def FlagsPts (p : Nat → UInt8) : Prop :=
  payloadByte p 3 ∉ plainStreamIds ∧ payloadByte p 7 &&& 0x80 ≠ 0
deriving Decidable

theorem parse_without_pts {p : Nat → UInt8} (hpts : ¬ CarriesPts p) {ph h : PesHeader}
    (hp : tsaParsePesHeader (payloadByte p) (payloadLenOf p) ph = some h) :
    h.pts = ph.pts ∧ h.dts = ph.dts ∧ (h.hasPts = true ↔ FlagsPts p) := by
  unfold tsaParsePesHeader at hp
  split at hp
  · cases hp
  split at hp
  · rename_i hplain
    cases hp
    refine ⟨rfl, rfl, ?_⟩
    constructor
    · intro h
      cases h
    · exact fun h => absurd hplain h.1
  rename_i hplain
  split at hp
  · cases hp
  simp only at hp
  rw [if_neg] at hp
  · cases hp
    refine ⟨rfl, rfl, ?_⟩
    show decide _ = true ↔ _
    rw [decide_eq_true_eq]
    exact ⟨fun h => ⟨hplain, h⟩, fun h => h.2⟩
  · rintro ⟨hflag, hlen⟩
    exact hpts ⟨hplain, hflag, hlen⟩

theorem tsaDecodePacketPure_hasPts {p : Nat → UInt8} (ph : PesHeader) (hpts : ¬ CarriesPts p)
    (hpes : StartsPes p) :
    (tsaDecodePacketPure p ph).pts = ph.pts ∧ (tsaDecodePacketPure p ph).dts = ph.dts ∧
      ((tsaDecodePacketPure p ph).hasPts = true ↔ FlagsPts p) := by
  obtain ⟨hpusi, hstart, hlen⟩ := hpes
  have hsome := (parse_isSome_iff hstart ph).mpr hlen
  obtain ⟨h, hp⟩ := Option.isSome_iff_exists.mp hsome
  have hp' : tsaParsePesHeader (fun i => p (4 + afLenOf p + i)) (payloadLenOf p) ph = some h := hp
  unfold tsaDecodePacketPure
  simp only
  rw [if_pos ⟨hpusi, payloadLenOf_pos_of_pesStart hstart, hstart⟩, hp']
  exact parse_without_pts hpts hp

/-- What the packet leaves behind where it has no PTS: the stack's values, unrolled. -/
def stackUnrolled (ph : PesHeader) (u : PtsUnroll) : PtsUnroll :=
  (tsaRecoverPts64 (tsaRecoverPts64 u ph.pts).1 ph.dts).1

/-- The values on the stack lead back: the DTS is the last time stamp, and from the PTS back to it
    the rollover offset makes the step that it made to the PTS. -/
def LeadsBack (ph : PesHeader) (u : PtsUnroll) : Prop :=
  ph.dts = u.lastPts33 ∧
    if ph.pts = noPts then u.ptsRolloverOffset = 0
    else if u.lastPts33 = noPts then
      u.ptsRolloverOffset = if noPts + 2 ^ 32 < ph.pts then 2 ^ 33 else 0
    else (ph.pts + 2 ^ 32 < u.lastPts33 → u.ptsRolloverOffset + 2 ^ 33 < 2 ^ 64) ∧
      (u.lastPts33 + 2 ^ 32 < ph.pts → 2 ^ 33 ≤ u.ptsRolloverOffset)
deriving Decidable

theorem stackUnrolled_eq_iff (ph : PesHeader) {u : PtsUnroll} (hu : u.ptsRolloverOffset < 2 ^ 64) :
    stackUnrolled ph u = u ↔ LeadsBack ph u := by
  obtain ⟨last, offset⟩ := u
  have hlast : (stackUnrolled ph ⟨last, offset⟩).lastPts33 = ph.dts := by
    unfold stackUnrolled
    rw [tsaRecoverPts64]
    split
    · rfl
    · rfl
  by_cases hdts : ph.dts = last
  swap
  · exact iff_of_false (fun h => hdts (hlast.symm.trans (congrArg PtsUnroll.lastPts33 h)))
      fun h => hdts h.1
  have hoffset : stackUnrolled ph ⟨last, offset⟩ = ⟨last, offset⟩ ↔
      (stackUnrolled ph ⟨last, offset⟩).ptsRolloverOffset = offset := by
    refine ⟨congrArg PtsUnroll.ptsRolloverOffset, fun h => ?_⟩
    show PtsUnroll.mk (stackUnrolled _ _).lastPts33 (stackUnrolled _ _).ptsRolloverOffset = _
    rw [hlast, hdts, h]
  rw [hoffset, LeadsBack, and_iff_right hdts, stackUnrolled]
  clear hoffset hlast
  simp only at hu
  by_cases hpts : ph.pts = noPts
  · by_cases hnew : last = noPts
    · simp only [tsaRecoverPts64, hpts, hnew, if_true]
      exact eq_comm
    · simp only [tsaRecoverPts64, hpts, hnew, if_true, if_false]
      exact eq_comm
  · by_cases hnew : last = noPts
    · have hsecond : (tsaRecoverPts64 (tsaRecoverPts64 ⟨last, offset⟩ ph.pts).1 ph.dts).1 =
          ⟨last, rolloverOffset ph.pts 0 last⟩ := by
        simp only [tsaRecoverPts64, if_pos hnew, if_neg hpts, hdts]
      rw [hsecond, if_neg hpts, if_pos hnew, ← hnew]
      simp only [rolloverOffset]
      split_ifs <;> omega
    · simp only [tsaRecoverPts64, rolloverOffset, hpts, hnew, hdts, if_false]
      split_ifs <;> omega

/-- **A PES start without a complete PTS, exactly where it leaves timing alone**: the parser rejects
    the header, or there is no PTS flag and the two values on the stack lead the unroll state back
    to where it was. -/
theorem ptsless_frame_iff (p : Nat → UInt8) (ph : PesHeader) (u : PtsUnroll)
    (hpts : ¬ CarriesPts p) (hu : u.ptsRolloverOffset < 2 ^ 64) :
    ((tsaDecodePacket p ph u).2 = u ∧ (tsaDecodePacket p ph u).1.hasPts = false) ↔
      (StartsPes p → ¬ FlagsPts p ∧ LeadsBack ph u) := by
  rw [← stackUnrolled_eq_iff ph hu]
  by_cases hpes : StartsPes p
  · obtain ⟨h1, h2, h3⟩ := tsaDecodePacketPure_hasPts ph hpts hpes
    have hheader := (tsaDecodePacketPure_hasPesHeader p ph).mpr hpes
    unfold tsaDecodePacket
    simp only
    rw [if_pos hheader, h1, h2, ← Bool.not_eq_true]
    show stackUnrolled ph u = u ∧ ¬ (tsaDecodePacketPure p ph).hasPts = true ↔ _
    rw [h3]
    exact ⟨fun h _ => ⟨h.2, h.1⟩, fun h => ⟨(h hpes).2, (h hpes).1⟩⟩
  · refine iff_of_true ⟨(tsaDecodePacket_no_pes hpes ph u).2, ?_⟩ fun h => absurd h hpes
    have hheader : ¬ (tsaDecodePacketPure p ph).hasPesHeader = true :=
      fun h => hpes ((tsaDecodePacketPure_hasPesHeader p ph).mp h)
    unfold tsaDecodePacket
    simp only
    rw [if_neg hheader]
    -- without a header the PES fields keep their initial values
    unfold tsaDecodePacketPure at hheader ⊢
    simp only at hheader ⊢
    split at hheader
    · rename_i hstart
      rw [if_pos hstart]
      split at hheader
      · exact absurd rfl hheader
      · rfl
    · rename_i hstart
      rw [if_neg hstart]

/-- A packet that starts a PES of the given stream id and flags, without adaptation field. -/
def pesPacket (id flags : UInt8) (i : Nat) : UInt8 :=
  [0x47, 0x41, 0x00, 0x10, 0x00, 0x00, 0x01, id, 0x00, 0x00, 0x80, flags, 0x00].getD i 0xFF

/-- The same behind an adaptation field of 174 bytes: ten bytes of the PES header are left. -/
def cutPesPacket (id flags : UInt8) (i : Nat) : UInt8 :=
  if i < 4 then [0x47, 0x41, 0x00, 0x30].getD i 0
  else if i = 4 then 173
  else if i < 178 then 0x00
  else [0x00, 0x00, 0x01, id, 0x00, 0x00, 0x80, flags, 0x05, 0x21].getD (i - 178) 0

/-- What lies on the stack. -/
def stackHeader (pts dts : Nat) : PesHeader := ⟨0, false, false, pts, dts, 0⟩

/-- A padding stream, with the last time stamp still on the stack. -/
theorem padding_left_alone :
    ¬ CarriesPts (pesPacket 0xBE 0x00) ∧
      (tsaDecodePacket (pesPacket 0xBE 0x00) (stackHeader 90000 90000) ⟨90000, 2 ^ 33⟩).2 =
        ⟨90000, 2 ^ 33⟩ ∧
      (tsaDecodePacket (pesPacket 0xBE 0x00) (stackHeader 90000 90000)
        ⟨90000, 2 ^ 33⟩).1.hasPts = false := by
  have hpts : ¬ CarriesPts (pesPacket 0xBE 0x00) := by decide +kernel
  refine ⟨hpts, ?_⟩
  exact (ptsless_frame_iff _ (stackHeader 90000 90000) ⟨90000, 2 ^ 33⟩ hpts (by decide)).2
    fun _ => by decide +kernel

/-- A video PES without PTS, over a stack of zeros, becomes a time stamp of 0; and where the packet
    ends before the PTS, `has_pts` is reported all the same. -/
theorem ptsless_header_unrolled :
    ¬ CarriesPts (pesPacket 0xE0 0x00) ∧
      (tsaDecodePacket (pesPacket 0xE0 0x00) (stackHeader 0 0) ⟨8589930000, 2 ^ 33⟩).2 =
        ⟨0, 2 ^ 34⟩ ∧
      ¬ CarriesPts (cutPesPacket 0xE0 0x80) ∧
      (tsaDecodePacket (cutPesPacket 0xE0 0x80) (stackHeader 0 0) ⟨0, 0⟩).1.hasPts = true := by
  decide +kernel

end TsAnalyzer.Packet
