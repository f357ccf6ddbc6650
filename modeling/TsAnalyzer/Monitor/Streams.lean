/-
  What a PMT does for the analysis of its elementary streams.

  Frame analysis, the T-STD model, audio audit and entropy statistics are gated by
  `es_tracks[pid].stream_type`; the PES and PID alarms by `live->pid_is_referenced[pid]`.
  `process_pmt` writes neither (it fills `programs[].streams` and `pid_types`), and nobody else
  does.
-/
import TsAnalyzer.Monitor.ProgramTable

namespace TsAnalyzer.Monitor

open Lib Alarm Essence Packet Pipeline
open Psi Tr101290

variable {ρ : Type}

/-! ## One call -/

/-- The call brings a packet with a complete PMT `p`, on the PMT PID of a listed program. -/
def ListedPmt (P : Parts ρ) (h : MonitorHandle ρ) : Input → (Nat → UInt8) → Prop
  | .packet m pkt n, p => (heard P h (m.byte pkt) n).isSome ∧ Carries (m.byte pkt) 0x02 p ∧
      ∃ q ∈ h.rest.watch.tables.programs.rows, q.pmtPid = pidOf (m.byte pkt)
  | _, _ => False

/-- Every stream of the PMT has its type in its track, and is referenced. -/
def Driven (h : MonitorHandle ρ) (p : Nat → UInt8) : Prop :=
  ∀ e ∈ pmtStreams p,
    (h.tracks e.pid).streamType = e.streamType ∧ h.rest.watch.pidIsReferenced e.pid = true

/-- No track has a stream type, and no PID is referenced. -/
structure Unset (h : MonitorHandle ρ) : Prop where
  streamType : ∀ pid, (h.tracks pid).streamType = 0
  referenced : ∀ pid, h.rest.watch.pidIsReferenced pid = false

theorem Decoded.streamType {σ : Type} {h h' : Handle σ} {p : Nat → UInt8} {ph : PesHeader}
    {res : DecodeResult} (d : Decoded h p ph h' res) (pid : Nat) :
    (h'.tracks pid).streamType = (h.tracks pid).streamType := by
  obtain ⟨u, hu⟩ := d.track pid
  rw [hu]

theorem tsaProcessPacket_streamType {σ : Type} (E : Engines σ) (h : Handle σ) (m : Memory)
    (pkt : PacketPtr) (n pid : Nat) :
    ((tsaProcessPacket E h m pkt n).handle.tracks pid).streamType =
      (h.tracks pid).streamType := by
  rcases tsaProcessPacket_cases E h m pkt n with
    ⟨h', -, -, hsame, heq⟩ | ⟨ph, h', res, -, -, hdec, heq⟩ |
    ⟨ph, h', res, env, -, -, hdec, -, -, -, heff⟩
  · rw [heq, hsame.1]
  · rw [heq]
    exact Decoded.streamType hdec pid
  · rw [heff.tracks, ← Decoded.streamType hdec pid]
    by_cases hpid : pid = res.pid
    · -- the track of the packet's PID goes through the plugin, unless it is the null PID
      rw [hpid, Function.update_self]
      split
      · rfl
      · exact EsTrack.onTs_streamType env res pkt _
    · rw [Function.update_of_ne hpid]

theorem inputStep_unset (P : Parts ρ) {h : MonitorHandle ρ} (hunset : Unset h) (i : Input) :
    Unset (inputStep P h i) := by
  constructor
  · intro pid
    rw [← hunset.streamType pid]
    cases i with
    | internalDrop dropCount => rfl
    | commitSnapshot n =>
      obtain ⟨alarms, rest, heq⟩ := tsaCommitSnapshot_eq P h n
      rw [inputStep, heq]
    | packet m pkt n => exact tsaProcessPacket_streamType P.engines h m pkt n pid
  · intro pid
    rw [(inputStep_unwritten P h i).2.2]
    exact hunset.referenced pid

/-! ## Runs -/

/-- **The gates stay shut**, in every run. -/
theorem unset_run (P : Parts ρ) (config : AlertConfig) (rest : ρ) (is : List Input) :
    Unset (is.foldl (inputStep P) (freshHandle config rest)) :=
  along_inv (R := fun _ _ => True) (I := Unset) (fun _ i hunset _ => inputStep_unset P hunset i) is
    (freshHandle config rest) ⟨fun _ => rfl, fun _ => rfl⟩ (along_true _ _ _) is List.prefix_rfl

/-- **The PMT drives elementary-stream analysis** throughout a run exactly when none of its PMTs
    lists a stream. -/
theorem pmt_drives_iff (P : Parts ρ) (config : AlertConfig) (rest : ρ) (is : List Input) :
    Along (fun h i => ∀ p, ListedPmt P h i p → Driven (inputStep P h i) p) (inputStep P)
        (freshHandle config rest) is ↔
      Along (fun h i => ∀ p, ListedPmt P h i p → pmtStreams p = []) (inputStep P)
        (freshHandle config rest) is := by
  refine along_iff (I := Unset) (fun h i hunset => inputStep_unset P hunset i) ?_ is
    (freshHandle config rest) ⟨fun _ => rfl, fun _ => rfl⟩
  intro h i hunset
  have hshut := inputStep_unset P hunset i
  refine forall_congr' fun p => imp_congr_right fun _ => ?_
  constructor
  · intro hdriven
    rw [List.eq_nil_iff_forall_not_mem]
    intro e he
    have hreferenced := (hdriven e he).2
    rw [hshut.referenced e.pid] at hreferenced
    cases hreferenced
  · intro hnone e he
    rw [hnone] at he
    cases he

/-- A PMT of program 1 with one stream: type 0x1B (H.264) on PID 0x101. -/
def pmtOne : Nat → UInt8 := sectionPacket 0x0100
  [0x02, 0xB0, 0x12, 0x00, 0x01, 0xC1, 0x00, 0x00, 0xE1, 0x01, 0xF0, 0x00, 0x1B, 0xE1, 0x01, 0xF0,
   0x00, 0x4F, 0xC4, 0x3D, 0x1B]

theorem pmtOne_carries : ∃ p, carried pmtOne 0x02 = some p ∧ pmtStreams p = [⟨0x101, 0x1B⟩] := by
  have hfields : ((carried pmtOne 0x02).map fun p =>
      (sectionLength p, lengthAt p 10, p 12, pidAt p 13, lengthAt p 15)) =
        some (21, 0, 0x1B, 0x101, 0) := by decide +kernel
  obtain ⟨p, hp, heq⟩ := Option.map_eq_some_iff.mp hfields
  obtain ⟨hlen, hinfo, htype, hpid, hes⟩ :
      sectionLength p = 21 ∧ lengthAt p 10 = 0 ∧ p 12 = 0x1B ∧ pidAt p 13 = 0x101 ∧
        lengthAt p 15 = 0 := by simpa using heq
  refine ⟨p, hp, ?_⟩
  -- two turns: the entry at 12, then the checksum at 17
  rw [pmtStreams, hlen, hinfo, esLoop, if_pos (by decide), esLoop, if_neg (by rw [hes]; decide),
    htype, hpid]

theorem pmtOne_listed {h : MonitorHandle Unit}
    (hlisted : (1, 0x100) ∈ tablePairs h.rest.watch.tables) (n : Nat) :
    ∃ p, ListedPmt Parts.idle h (packetOf pmtOne n) p ∧ pmtStreams p = [⟨0x101, 0x1B⟩] := by
  obtain ⟨p, hp, hstreams⟩ := pmtOne_carries
  obtain ⟨res, hheard, -⟩ := heard_idle h (p := pmtOne) (by decide) n
  obtain ⟨q, hq, hpair⟩ := List.mem_map.mp hlisted
  refine ⟨p, ?_, hstreams⟩
  rw [packetOf, ListedPmt, packet_bytes]
  refine ⟨by rw [hheard]; rfl, carried_eq_some.mp hp, q, hq, ?_⟩
  rw [(Prod.mk.inj hpair).2]
  decide

/-- **A video stream that is not analysed**: PAT, then PMT. -/
theorem pmtOne_not_driven :
    let h1 := inputStep Parts.idle (freshHandle plainConfig ()) (packetOf patOne 0)
    let h2 := inputStep Parts.idle h1 (packetOf pmtOne 0)
    ∃ p, ListedPmt Parts.idle h1 (packetOf pmtOne 0) p ∧ pmtStreams p = [⟨0x101, 0x1B⟩] ∧
      (h2.tracks 0x101).streamType = 0 ∧ h2.rest.watch.pidIsReferenced 0x101 = false := by
  intro h1 h2
  have hunset : Unset h2 := unset_run Parts.idle plainConfig () [packetOf patOne 0,
    packetOf pmtOne 0]
  obtain ⟨p, hlisted, hstreams⟩ := pmtOne_listed (patOne_listed 0) 0
  exact ⟨p, hlisted, hstreams, hunset.streamType _, hunset.referenced _⟩

end TsAnalyzer.Monitor
