/-
  Bit conservation of the T-STD leak: what one buffer gives up the next one gets.

  `tsa_tstd_update_leak` moves bits TB → MB → EB (video) or TB → EB (everything else).  How many
  bits TB, MB and EB hold TOGETHER after a gap is computed exactly, clamp by clamp.  Bits are lost
  from TB → EB, where the clamp to the free space of EB comes AFTER TB has given them up.
-/
import TsAnalyzer.Essence.TstdSanity

namespace TsAnalyzer.Essence

open Lib

/-! ## What the buffers hold -/

def Tstd.bits (t : Tstd) : Int := t.tbFill + t.mbFill + t.ebFill

/-- The fills are non-negative `int128_t` values. -/
structure Tstd.Stored (t : Tstd) : Prop where
  tb : 0 ≤ t.tbFill
  mb : 0 ≤ t.mbFill
  eb : 0 ≤ t.ebFill
  tbLt : t.tbFill < 2 ^ 127
  mbLt : t.mbFill < 2 ^ 127
  ebLt : t.ebFill < 2 ^ 127

variable {b : Bitrates} {t : Tstd} {dt : Nat}

/-! ## The flow of a gap -/

theorem leakToEb_bits {size : Nat} (hsize : size ≤ 2 ^ 22)
    (hmb : -(2 ^ 127) ≤ t.mbFill) (hmb1 : t.mbFill < 2 ^ 127) (heb : 0 ≤ t.ebFill)
    (hrbx : rateRbx b t * dt % 2 ^ 64 < 2 ^ 63) : (leakToEb size b dt t).bits = t.bits := by
  obtain ⟨x, heq, -⟩ := leakToEb_moves hsize hmb hmb1 heb hrbx
  rw [heq]
  show t.tbFill + (t.mbFill - x) + (t.ebFill + x) = t.tbFill + t.mbFill + t.ebFill
  omega

variable {streamType : UInt8}

/-- **Video**: the only loss is the wrap of MB. -/
theorem flow_bits_video
    (hvideo : tsaIsVideo streamType) (hs : t.Stored) (hgap : GapOk streamType b dt t) :
    (flow streamType b dt t).bits =
      t.bits - tbLeaked b t dt - t.mbFill + wrap128 (t.mbFill + tbLeaked b t dt) := by
  obtain ⟨hx0, hx1⟩ := tbLeaked_range hs.tb hgap.1
  obtain ⟨htb, hmb, heb, htb1, hmb1, heb1⟩ := hs
  obtain ⟨x, hx⟩ : ∃ x, x = tbLeaked b t dt := ⟨_, rfl⟩
  rw [← hx] at hx0 hx1
  have ht : wrap128 (t.tbFill - x) = t.tbFill - x := wrap128_of_range (by omega) (by omega)
  unfold flow
  simp only [← hx]
  rw [ht, if_pos hvideo]
  have hlo : -(2 ^ 127) ≤ wrap128 (t.mbFill + x) := wrap128_lower _
  have hhi : wrap128 (t.mbFill + x) < 2 ^ 127 := wrap128_upper _
  rw [leakToEb_bits (t := { t with tbFill := t.tbFill - x, mbFill := wrap128 (t.mbFill + x) })
    (ebSize_le streamType) hlo hhi heb (hgap.2 hvideo)]
  show t.tbFill - x + wrap128 (t.mbFill + x) + t.ebFill =
    t.tbFill + t.mbFill + t.ebFill - x - t.mbFill + wrap128 (t.mbFill + x)
  omega

/-- **Other types**: EB takes what it has room for of what TB has given up. -/
theorem flow_bits_other
    (hother : ¬ tsaIsVideo streamType) (hs : t.Stored) (hgap : GapOk streamType b dt t) :
    (flow streamType b dt t).bits = t.bits - tbLeaked b t dt +
      min (tbLeaked b t dt) (ebSize streamType * 2 ^ 64 - t.ebFill) := by
  obtain ⟨hx0, hx1⟩ := tbLeaked_range hs.tb hgap.1
  obtain ⟨htb, hmb, heb, htb1, hmb1, heb1⟩ := hs
  have hsize := ebSize_le streamType
  obtain ⟨x, hx⟩ : ∃ x, x = tbLeaked b t dt := ⟨_, rfl⟩
  rw [← hx] at hx0 hx1
  have ht : wrap128 (t.tbFill - x) = t.tbFill - x := wrap128_of_range (by omega) (by omega)
  have hq : toQ64 (ebSize streamType : Int) = ebSize streamType * 2 ^ 64 :=
    toQ64_of_range (by omega) (by omega)
  have hfree : wrap128 ((ebSize streamType : Int) * 2 ^ 64 - t.ebFill) =
      ebSize streamType * 2 ^ 64 - t.ebFill := wrap128_of_range (by omega) (by omega)
  unfold flow
  simp only [← hx]
  rw [ht, if_neg hother, hq, hfree]
  obtain ⟨y, hy⟩ : ∃ y, y = min x ((ebSize streamType : Int) * 2 ^ 64 - t.ebFill) := ⟨_, rfl⟩
  -- `y` is negative when EB is above its size: the fill is then cut down to the size
  have he : wrap128 (t.ebFill + y) = t.ebFill + y := wrap128_of_range (by omega) (by omega)
  rw [← hy, he]
  show t.tbFill - x + t.mbFill + (t.ebFill + y) = t.tbFill + t.mbFill + t.ebFill - x + y
  omega

/-! ## Conservation -/

/-- No gap to leak in: the first call of a track, or one that does not move its clock. -/
def NoGap (nowVstc : Nat) (t : Tstd) : Prop := t.lastLeakVstc = 0 ∨ nowVstc ≤ t.lastLeakVstc
deriving Decidable

/-- The next buffer takes all that TB gives up: MB of a video track (it has no size, only the
    128-bit range), EB of any other. -/
def NextTakes (streamType : UInt8) (b : Bitrates) (dt : Nat) (t : Tstd) : Prop :=
  if tsaIsVideo streamType then t.mbFill + tbLeaked b t dt < 2 ^ 127
  else t.ebFill + tbLeaked b t dt ≤ ebSize streamType * 2 ^ 64
deriving Decidable

theorem flow_bits_iff (hs : t.Stored) (hgap : GapOk streamType b dt t) :
    (flow streamType b dt t).bits = t.bits ↔ NextTakes streamType b dt t := by
  obtain ⟨hx0, hx1⟩ := tbLeaked_range hs.tb hgap.1
  unfold NextTakes
  split
  · rename_i hvideo
    rw [flow_bits_video hvideo hs hgap]
    have hmb := hs.mb
    constructor
    · intro h
      have hhi : wrap128 (t.mbFill + tbLeaked b t dt) < 2 ^ 127 := wrap128_upper _
      omega
    · intro h
      have hm : wrap128 (t.mbFill + tbLeaked b t dt) = t.mbFill + tbLeaked b t dt :=
        wrap128_of_range (by omega) h
      omega
  · rename_i hother
    rw [flow_bits_other hother hs hgap]
    constructor <;> intro h <;> omega

/-- **Bit conservation, exactly where it holds**: a call of `tsa_tstd_update_leak` leaves TB, MB and
    EB together as they were iff it has nothing to leak in, or the buffer after TB takes all that TB
    gives up.  `LeakOk` is weaker than `rate * dt < 2^63`: it bounds the low 64 bits only. -/
theorem bits_conserved_iff (streamType : UInt8) (b : Bitrates) (q : AuQueue) (nowVstc : Nat)
    (t : Tstd) (hs : t.Stored) (hleak : LeakOk streamType b nowVstc t) :
    (tsaTstdUpdateLeak streamType b q nowVstc t).1.bits = t.bits ↔
      NoGap nowVstc t ∨ NextTakes streamType b (nowVstc - t.lastLeakVstc) t := by
  unfold tsaTstdUpdateLeak
  split
  · rename_i hfirst
    exact iff_of_true rfl (.inl (.inl hfirst))
  · rename_i hfirst
    split
    · rename_i hback
      exact iff_of_true rfl (.inl (.inr hback))
    · rename_i hlater
      have hno : ¬ NoGap nowVstc t := fun h => h.elim hfirst hlater
      rw [or_iff_right hno]
      -- the predictive alarms read the fills and write none of them
      exact flow_bits_iff hs (hleak hfirst (by omega))

/-- A track with a full EB and `packets` packets in TB, one second into its clock. -/
def fullEb (streamType : UInt8) (packets : Nat) : Tstd :=
  { ebFill := ebSize streamType * 2 ^ 64, tbFill := packets * 1504 * 2 ^ 64, mbFill := 0
    lastLeakVstc := 1000000000, lastUnderflowDts := 0, leakRateEb := 0, leakRateRx := 0
    timeToUnderflowMs := -1, timeToOverflowMs := -1 }

/-- The only known bitrate is the PID's, 10 Mbit/s. -/
def tenMbit : Bitrates := ⟨0, 10000000, 0⟩

/-- The back-pressure of a full EB: 100 packets of an H.264 track leak for 10 ms into MB. -/
theorem backpressure_conserved :
    (fullEb 0x1b 100).Stored ∧ LeakOk 0x1b tenMbit 1010000000 (fullEb 0x1b 100) ∧
      (tsaTstdUpdateLeak 0x1b tenMbit .fresh 1010000000 (fullEb 0x1b 100)).1.bits =
        (fullEb 0x1b 100).bits := by
  have hs : (fullEb 0x1b 100).Stored := by constructor <;> decide +kernel
  have hleak : LeakOk 0x1b tenMbit 1010000000 (fullEb 0x1b 100) := by
    unfold LeakOk GapOk
    decide +kernel
  refine ⟨hs, hleak, ?_⟩
  exact (bits_conserved_iff 0x1b tenMbit .fresh 1010000000 _ hs hleak).2 (.inr (by decide +kernel))

/-- An AAC track has no MB: with EB full, a packet leaves TB in 10 ms and is gone. -/
theorem audio_packet_lost :
    (fullEb 0x0f 1).Stored ∧ rateRx tenMbit (fullEb 0x0f 1) * 10000000 < 2 ^ 63 ∧
      (tsaTstdUpdateLeak 0x0f tenMbit .fresh 1010000000 (fullEb 0x0f 1)).1.bits =
        (fullEb 0x0f 1).bits - 1504 * 2 ^ 64 := by
  refine ⟨?_, ?_, ?_⟩
  · constructor <;> decide +kernel
  · decide +kernel
  · decide +kernel

end TsAnalyzer.Essence
