/-
  PTS unrolling along a whole run of `tsa_process_packet`.

  The unroll state of a PID is written by TWO functions: `tsa_decode_packet` leaves 33-bit values,
  the accumulator overwrites `last_pts_33` with the UNROLLED PTS.  From the first rollover on
  another one is counted for every PES.
-/
import TsAnalyzer.Packet.Unroll
import TsAnalyzer.Pipeline.BufferSanity

namespace TsAnalyzer.Pipeline

open Lib Alarm Essence Packet

variable {ρ : Type}

/-! ## Runs with true times -/

/-- A packet, with the true presentation and decoding time of the PES it starts, if it does. -/
structure Stamped where
  d : Delivery
  time : Nat
  dts : Nat

def IsPes (pid : Nat) (p : Nat → UInt8) : Prop := p 0 = 0x47 ∧ pidOf p = pid ∧ StartsPes p
deriving Decidable

/-- The packet gets to the accumulator: not filtered, not null, no reset of its track. -/
def reaches (E : Engines ρ) (h : Handle ρ) (d : Delivery) : Bool :=
  match intake E h d.bytes d.n with
  | .accepted h' res => res.pid ≠ 0x1FFF ∧ ¬ (h'.found d.pkt res).Resets
  | _ => false

/-- `res.pts` as `tsa_process_packet` computes it. -/
def computedPts (E : Engines ρ) (h : Handle ρ) (d : Delivery) : Option Nat :=
  match intake E h d.bytes d.n with
  | .noSync _ => none
  | .filtered _ res => some res.pts
  | .accepted _ res => some res.pts

/-- A PES of the past: its true times, its coded DTS, and whether it got to the accumulator. -/
structure Seen where
  time : Nat
  dts : Nat
  coded : Nat
  reached : Bool

/-- The true time a PES leaves in the unroll state: the accumulator writes the PTS back, otherwise
    the DTS comes last. -/
def Seen.left (s : Seen) : Nat := if s.reached then s.time else s.dts

/-- What a PES left in the unroll state stands for a true time: a PES that got to the accumulator
    lies below the first rollover, and its DTS did not count one; any other has a DTS coded from a
    true time near its PTS. -/
def Seen.Clean (s : Seen) : Prop :=
  if s.reached then s.time < 2 ^ 33 ∧ s.time ≤ s.coded + 2 ^ 32
  else s.coded = s.dts % 2 ^ 33 ∧ s.coded ≠ noPts ∧ Near s.dts s.time ∧ s.dts < 2 ^ 64
deriving Decidable

/-- A handle, and the last PES of the PID under watch. -/
structure Watch (ρ : Type) where
  handle : Handle ρ
  prev : Option Seen

def Watch.step (E : Engines ρ) (pid : Nat) (w : Watch ρ) (x : Stamped) : Watch ρ where
  handle := processStep E w.handle x.d
  prev := if IsPes pid x.d.bytes then
    some ⟨x.time, x.dts, codedDts x.d.bytes, reaches E w.handle x.d⟩ else w.prev

/-- What is given of the stream: every PES carries a PTS, coded from a true time less than half a
    period away from the last one; the first lies below 2^33. -/
def Timed (pid : Nat) (w : Watch ρ) (x : Stamped) : Prop :=
  IsPes pid x.d.bytes → CarriesPts x.d.bytes ∧ codedPts x.d.bytes = x.time % 2 ^ 33 ∧
    codedPts x.d.bytes ≠ noPts ∧
    match w.prev with
    | none => x.time < 2 ^ 33
    | some s => Near x.time s.time

/-- The condition: the last PES left a true time, and the present one is near it. -/
def Steady (pid : Nat) (w : Watch ρ) (x : Stamped) : Prop :=
  IsPes pid x.d.bytes → x.time < 2 ^ 64 ∧ ∀ s, w.prev = some s → s.Clean ∧ Near x.time s.left

/-- The PTS computed for a PES is its true time. -/
def Exact (E : Engines ρ) (pid : Nat) (w : Watch ρ) (x : Stamped) : Prop :=
  IsPes pid x.d.bytes → computedPts E w.handle x.d = some x.time

/-! ## One packet -/

theorem processStep_unroll_of_not_pes (E : Engines ρ) (h : Handle ρ) (d : Delivery) {pid : Nat}
    (hpes : ¬ IsPes pid d.bytes) :
    ((processStep E h d).tracks pid).unroll = (h.tracks pid).unroll := by
  -- decoding leaves it alone: another PID, or no PES header
  have hdecoded : ∀ {ph h' res}, d.bytes 0 = 0x47 → Decoded h d.bytes ph h' res →
      (h'.tracks pid).unroll = (h.tracks pid).unroll ∧
        (pid = res.pid → res.hasPesHeader = false) := by
    intro ph h' res hsync hdec
    by_cases hpid : pid = pidOf d.bytes
    · have hno : ¬ StartsPes d.bytes := fun hs => hpes ⟨hsync, hpid.symm, hs⟩
      obtain ⟨hheader, hunroll⟩ := tsaDecodePacket_no_pes hno ph (h.tracks (pidOf d.bytes)).unroll
      rw [← hdec.1] at hheader hunroll
      exact ⟨by rw [hpid]; exact hunroll, fun _ => hheader⟩
    · refine ⟨by rw [hdec.track_of_ne hpid], fun h' => absurd ?_ hpid⟩
      rw [h', hdec.describes.pid]
  unfold processStep
  rcases tsaProcessPacket_cases E h d.mem d.pkt d.n with
    ⟨h', -, -, hsame, ho⟩ | ⟨ph, h', res, -, hsync, hdec, ho⟩ |
    ⟨ph, h', res, env, -, hsync, hdec, -, -, -, heff⟩
  · rw [ho, hsame.1]
  · rw [ho]
    exact (hdecoded hsync hdec).1
  · obtain ⟨hunroll, hheader⟩ := hdecoded hsync hdec
    rw [heff.tracks]
    by_cases hpid : pid = res.pid
    · have hkeep : ¬ (¬ (res.hasDiscontinuity ∨ env.latched) ∧ 0 < res.payloadLen ∧ res.pusi ∧
          res.hasPesHeader) := by
        rintro ⟨-, -, -, hh⟩
        rw [hheader hpid] at hh
        cases hh
      rw [← hpid, Function.update_self]
      split
      · exact hunroll
      · rw [EsTrack.onTs_unroll, if_neg hkeep]
        exact hunroll
    · rw [Function.update_of_ne hpid]
      exact hunroll

/-- A PES of the PID: its PTS is recovered from the unroll state, its DTS from the state that
    leaves, and the accumulator, where the packet gets there, writes the unrolled PTS back. -/
theorem processStep_unroll_of_pes (E : Engines ρ) (h : Handle ρ) (d : Delivery) {pid : Nat}
    (hpes : IsPes pid d.bytes) (hpts : CarriesPts d.bytes) {a b : PtsUnroll × Nat}
    (ha : a = tsaRecoverPts64 (h.tracks pid).unroll (codedPts d.bytes))
    (hb : b = tsaRecoverPts64 a.1 (codedDts d.bytes)) :
    computedPts E h d = some a.2 ∧
      ((processStep E h d).tracks pid).unroll =
        if reaches E h d then ⟨a.2, b.1.ptsRolloverOffset⟩ else b.1 := by
  obtain ⟨hsync, hpid, hstart⟩ := hpes
  have hdecoded : ∀ {ph h' res}, Decoded h d.bytes ph h' res →
      res.hasPesHeader = true ∧ res.pts = a.2 ∧ (h'.tracks pid).unroll = b.1 := by
    intro ph h' res hdec
    obtain ⟨hheader, hval, hunroll⟩ :=
      tsaDecodePacket_pes hstart hpts ph (h.tracks (pidOf d.bytes)).unroll
    rw [← hdec.1, hpid] at hheader hval hunroll
    rw [← ha] at hval hunroll
    rw [← hb] at hunroll
    exact ⟨hheader, hval, hunroll⟩
  unfold processStep computedPts reaches
  rcases tsaProcessPacket_cases E h d.mem d.pkt d.n with
    ⟨h', -, hnosync, -, -⟩ | ⟨ph, h', res, hin, -, hdec, ho⟩ |
    ⟨ph, h', res, env, hin, -, hdec, -, -, hlatched, heff⟩
  · exact absurd hsync hnosync
  · obtain ⟨-, hval, hunroll⟩ := hdecoded hdec
    change intake E h d.bytes d.n = _ at hin
    rw [ho, hin]
    exact ⟨congrArg some hval, by rw [if_neg (by simp)]; exact hunroll⟩
  · obtain ⟨hheader, hval, hunroll⟩ := hdecoded hdec
    have hdes := hdec.describes
    have hrpid : res.pid = pid := hdes.pid.trans hpid
    change intake E h d.bytes d.n = _ at hin
    rw [heff.tracks, hin, hrpid, Function.update_self]
    refine ⟨congrArg some hval, ?_⟩
    have hwrites : (¬ (res.hasDiscontinuity ∨ env.latched) ∧ 0 < res.payloadLen ∧ res.pusi ∧
        res.hasPesHeader) ↔ ¬ (h'.found d.pkt res).Resets := by
      have hpay : 0 < res.payloadLen := by
        rw [hdes.payloadLen]
        exact payloadLenOf_pos_of_pesStart hstart.2.1
      have hpusi : res.pusi = true := hdes.pusi.trans hstart.1
      simp only [Found.Resets, Handle.found, hpay, hpusi, hheader, hlatched, and_true,
        decide_eq_true_eq]
    by_cases hnull : pid = 0x1FFF
    · rw [if_pos hnull, if_neg (by simp [hrpid, hnull])]
      exact hunroll
    · rw [if_neg hnull, EsTrack.onTs_unroll]
      by_cases hreset : (h'.found d.pkt res).Resets
      · rw [if_neg (fun h => hwrites.mp h hreset), if_neg (by simp [hreset])]
        exact hunroll
      · rw [if_pos (hwrites.mpr hreset), if_pos (by simp [hreset, hrpid, hnull]), hunroll, hval]

/-! ## Whole runs -/

/-- The unroll state stands for what the last PES left, if that was clean. -/
def Unrolled (pid : Nat) (w : Watch ρ) : Prop :=
  match w.prev with
  | none => (w.handle.tracks pid).unroll.lastPts33 = noPts
  | some s => s.Clean →
      (w.handle.tracks pid).unroll = unrolledTo s.left ∧ s.left % 2 ^ 33 ≠ noPts

theorem recover_timed {pid : Nat} {w : Watch ρ} {x : Stamped} (hw : Unrolled pid w)
    (hpes : IsPes pid x.d.bytes) (htimed : Timed pid w x) (hsteady : Steady pid w x) :
    tsaRecoverPts64 (w.handle.tracks pid).unroll (codedPts x.d.bytes) =
      (unrolledTo x.time, x.time) ∧ x.time % 2 ^ 33 ≠ noPts := by
  obtain ⟨-, hcoded, hmark, hfirst⟩ := htimed hpes
  obtain ⟨hlt, hleft⟩ := hsteady hpes
  refine ⟨?_, hcoded ▸ hmark⟩
  rw [hcoded]
  unfold Unrolled at hw
  cases hprev : w.prev with
  | none =>
    rw [hprev] at hw hfirst
    have hu : (w.handle.tracks pid).unroll =
        ⟨noPts, (w.handle.tracks pid).unroll.ptsRolloverOffset⟩ := by rw [← hw]
    rw [hu]
    exact recover_first hfirst
  | some s =>
    rw [hprev] at hw
    obtain ⟨hclean, hnear⟩ := hleft s hprev
    obtain ⟨hu, hseen⟩ := hw hclean
    rw [hu]
    exact recover_near hseen hnear hlt

theorem step_unrolled {E : Engines ρ} {pid : Nat} {w : Watch ρ} {x : Stamped} (hw : Unrolled pid w)
    (htimed : Timed pid w x) (hsteady : Steady pid w x) : Unrolled pid (w.step E pid x) := by
  by_cases hpes : IsPes pid x.d.bytes
  · obtain ⟨hrec, hmark⟩ := recover_timed hw hpes htimed hsteady
    obtain ⟨-, hunroll⟩ := processStep_unroll_of_pes E w.handle x.d hpes (htimed hpes).1
      hrec.symm rfl
    simp only [Unrolled, Watch.step, if_pos hpes]
    intro hclean
    rw [hunroll]
    cases hreach : reaches E w.handle x.d with
    | true =>
      simp only [Seen.Clean, hreach, if_true] at hclean
      obtain ⟨hbelow, hdts⟩ := hclean
      have hmod : x.time % 2 ^ 33 = x.time := Nat.mod_eq_of_lt hbelow
      simp only [Seen.left, if_true]
      refine ⟨?_, hmark⟩
      rw [recover_offset hbelow (hmod ▸ hmark) hdts, unrolledTo, hmod, Nat.sub_self]
    | false =>
      simp only [Seen.Clean, hreach, Bool.false_eq_true, if_false] at hclean
      obtain ⟨hcoded, hdmark, hnear, hlt⟩ := hclean
      simp only [Seen.left, Bool.false_eq_true, if_false]
      refine ⟨?_, hcoded ▸ hdmark⟩
      rw [hcoded, recover_near hmark hnear hlt]
  · simp only [Unrolled, Watch.step, if_neg hpes]
    rw [processStep_unroll_of_not_pes E w.handle x.d hpes]
    exact hw

/-- **PTS unrolling**: in every run on a fresh handle whose PES of the PID are timed and steady, the
    PTS computed for every PES is its true time. -/
theorem pts_exact (E : Engines ρ) (config : AlertConfig) (rest : ρ) (pid : Nat) (xs : List Stamped)
    (htimed : Along (Timed pid) (Watch.step E pid) ⟨Handle.fresh config rest, none⟩ xs)
    (hsteady : Along (Steady pid) (Watch.step E pid) ⟨Handle.fresh config rest, none⟩ xs) :
    Along (Exact E pid) (Watch.step E pid) ⟨Handle.fresh config rest, none⟩ xs := by
  refine along_of_along (I := Unrolled pid) (fun w x hw h => step_unrolled hw h.1 h.2) ?_ xs _
    rfl (along_and htimed hsteady)
  intro w x hw h hpes
  obtain ⟨hrec, -⟩ := recover_timed hw hpes h.1 h.2
  exact (processStep_unroll_of_pes E w.handle x.d hpes (h.1 hpes).1 hrec.symm rfl).1

/-- A packet of PID 0x100 that starts a video PES with this coded PTS and no DTS. -/
def pesPacket (pts : Nat) : Nat → UInt8 := fun i =>
  [0x47, 0x41, 0x00, 0x10, 0x00, 0x00, 0x01, 0xE0, 0x00, 0x00, 0x80, 0x80, 0x05,
    UInt8.ofNat (0x21 + pts / 2 ^ 30 % 8 * 2), UInt8.ofNat (pts / 2 ^ 22),
    UInt8.ofNat (pts / 2 ^ 15 % 128 * 2 + 1), UInt8.ofNat (pts / 2 ^ 7),
    UInt8.ofNat (pts % 128 * 2 + 1)].getD i 0

/-- The PES of true time `time`, in the caller's memory. -/
def pesAt (time : Nat) : Stamped :=
  ⟨⟨⟨pesPacket (time % 2 ^ 33), fun _ => 0⟩, .caller 0, 0⟩, time, time⟩

/-- Two frames of 25 frames a second. -/
theorem two_frames_exact :
    Along (Exact Engines.idle 0x100) (Watch.step Engines.idle 0x100)
      ⟨Handle.fresh ⟨"", 0, 0, false, false⟩ (), none⟩ [pesAt 90000, pesAt 93600] := by
  refine pts_exact Engines.idle ⟨"", 0, 0, false, false⟩ () 0x100 _ ?_ ?_
  · have hnear : Near 93600 90000 := by decide
    refine ⟨fun _ => ⟨?_, ?_, ?_, ?_⟩, fun _ => ⟨?_, ?_, ?_, hnear⟩, trivial⟩
    all_goals decide +kernel
  · refine ⟨fun _ => ⟨by decide, fun s hs => by cases hs⟩,
      fun _ => ⟨by decide, fun s hs => ?_⟩, trivial⟩
    injection hs with hs
    subst hs
    exact ⟨by decide +kernel, by decide +kernel⟩

/-- **Three PES across one rollover are enough**: the third is given a time one clock period
    late. -/
theorem pts_late_after_rollover :
    ¬ Along (Exact Engines.idle 0x100) (Watch.step Engines.idle 0x100)
      ⟨Handle.fresh ⟨"", 0, 0, false, false⟩ (), none⟩
      [pesAt (2 ^ 33 - 3600), pesAt (2 ^ 33), pesAt (2 ^ 33 + 3600)] := by
  rintro ⟨-, -, hthird, -⟩
  have hpes : ∀ T ∈ [2 ^ 33, 2 ^ 33 + 3600],
      IsPes 0x100 (pesAt T).d.bytes ∧ CarriesPts (pesAt T).d.bytes := by decide +kernel
  obtain ⟨hp2, hc2⟩ := hpes (2 ^ 33) (by simp)
  obtain ⟨hp3, hc3⟩ := hpes (2 ^ 33 + 3600) (by simp)
  obtain ⟨h1, hh1⟩ : ∃ h1, h1 = processStep Engines.idle (Handle.fresh ⟨"", 0, 0, false, false⟩ ())
    (pesAt (2 ^ 33 - 3600)).d := ⟨_, rfl⟩
  -- the first PES leaves its own time, the second the unrolled one
  have hu1 : (h1.tracks 0x100).unroll = ⟨2 ^ 33 - 3600, 0⟩ := by rw [hh1]; decide +kernel
  have hreach : reaches Engines.idle h1 (pesAt (2 ^ 33)).d = true := by rw [hh1]; decide +kernel
  obtain ⟨-, hu2⟩ := processStep_unroll_of_pes Engines.idle h1 (pesAt (2 ^ 33)).d hp2 hc2 rfl rfl
  rw [hu1, hreach, if_pos rfl] at hu2
  obtain ⟨hpts, -⟩ := processStep_unroll_of_pes Engines.idle
    (processStep Engines.idle h1 (pesAt (2 ^ 33)).d) (pesAt (2 ^ 33 + 3600)).d hp3 hc3 rfl rfl
  rw [hu2] at hpts
  subst hh1
  exact absurd (hpts.symm.trans (hthird hp3)) (by decide +kernel)

end TsAnalyzer.Pipeline
