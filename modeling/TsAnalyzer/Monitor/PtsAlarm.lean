/-
  The PTS repetition alarm: a PES start more than 700 ms after the one before it.

  1. **Program** — the plugin takes the time of the PES start before from `last_seen_vstc` of the
     track, and writes it at every PES start.  But `tsa_process_packet` writes the same field, for
     the PID timeouts, with the STC of EVERY packet, just before the plugins run.
  2. **Specification** — an observer notes PID and STC of every PES start (`pesHeard`), and compares
     each with the last one of its PID.
-/
import TsAnalyzer.Monitor.Handle

namespace TsAnalyzer.Monitor

open Lib Alarm Packet Pipeline Psi
open Tr101290

variable {ρ : Type}

/-! ## Specification -/

/-- PID and STC of a packet that starts a PES and gets to the plugins. -/
def pesHeard (P : Parts ρ) (h : MonitorHandle ρ) : Input → List (Nat × Nat)
  | .packet m pkt n =>
    match intake P.engines h (m.byte pkt) n with
    | .accepted h' res => if res.hasPesHeader then [(res.pid, h'.alarms.stcNs)] else []
    | _ => []
  | _ => []

/-- The analyzer, and the PES starts. -/
def pesPush (P : Parts ρ) (h : MonitorHandle ρ) (i : Input) : MonitorHandle ρ × List (Nat × Nat) :=
  (inputStep P h i, pesHeard P h i)

def lastPesStart (out : List (Nat × Nat)) (pid : Nat) : Option Nat :=
  (out.filter fun x => x.1 = pid).getLast?.map Prod.snd

/-- How far two times are apart. -/
def stcDistance (s t : Nat) : Nat := (s - t) + (t - s)

/-- The PES start is more than 700 ms from the one before it, and no alert hides the alarm. -/
def PtsDue (r : MonitorHandle ρ × List (Nat × Nat)) (x : Nat × Nat) : Prop :=
  (∃ last ∈ lastPesStart r.2 x.1, ptsTimeoutNs < stcDistance x.2 last) ∧
    tsaAlertIsSuppressedByTree r.1.alarms.toAlerts .pts = false
deriving Decidable

/-- The call updates the alert with an error: it is counted. -/
def PtsRaised (P : Parts ρ) (h : MonitorHandle ρ) (i : Input) : Prop :=
  ((inputStep P h i).alarms.alerts .pts).countInWindow =
    ((h.alarms.alerts .pts).countInWindow + 1) % 2 ^ 32

/-- At a PES start, the alert is raised exactly if it is due. -/
def PtsAlarmed (P : Parts ρ) (r : MonitorHandle ρ × List (Nat × Nat)) (i : Input) : Prop :=
  ∀ x ∈ pesHeard P r.1 i, PtsRaised P r.1 i ↔ PtsDue r x

/-- No PES start is due for an alarm. -/
def PtsTimely (P : Parts ρ) (r : MonitorHandle ρ × List (Nat × Nat)) (i : Input) : Prop :=
  ∀ x ∈ pesHeard P r.1 i, ¬ PtsDue r x

/-! ## The plugin -/

theorem checkPts_seen {a : Alarms} {t : TrTrack} (res : DecodeResult)
    (hseen : t.lastSeenVstc = a.stcNs) : checkPts a t res = a := by
  have hzero : ¬ ptsTimeoutNs < sub64 a.stcNs t.lastSeenVstc := by
    unfold ptsTimeoutNs sub64
    omega
  rw [checkPts, if_neg hzero]
  split <;> rfl

theorem onPacket_pts (w : Watch) (a : Alarms) (res : DecodeResult) (p : Nat → UInt8) (n : Nat) :
    (w.onPacket a res p n).2.alerts .pts = a.alerts .pts := by
  obtain ⟨a1, hfront, hlast⟩ := trOnTs_pts { w.tracks res.pid with lastSeenVstc := a.stcNs }
    (w.filterSection res p) a p res n
  rw [Watch.onPacket, hlast, checkPts_seen res hfront.stcNs.symm]
  exact hfront.path.alerts (by decide)

theorem heard_of_pesHeard {P : Parts ρ} {h : MonitorHandle ρ} {i : Input} {x : Nat × Nat}
    (hx : x ∈ pesHeard P h i) :
    ∃ m pkt n res, i = .packet m pkt n ∧ heard P h (m.byte pkt) n = some res := by
  cases i with
  | internalDrop | commitSnapshot => exact absurd hx List.not_mem_nil
  | packet m pkt n =>
    cases hin : intake P.engines h (m.byte pkt) n with
    | noSync | filtered => simp only [pesHeard, hin, List.not_mem_nil] at hx
    | accepted h' res => exact ⟨m, pkt, n, res, rfl, by simp only [heard, hin]⟩

theorem not_ptsRaised {P : Parts ρ} {h : MonitorHandle ρ} {i : Input} {x : Nat × Nat}
    (hx : x ∈ pesHeard P h i) : ¬ PtsRaised P h i := by
  obtain ⟨m, pkt, n, res, rfl, hheard⟩ := heard_of_pesHeard hx
  obtain ⟨a, -, -, hbefore, -, hafter⟩ := heard_effect hheard
  rw [PtsRaised, hafter.alerts (by decide), onPacket_pts, hbefore.alerts (by decide)]
  omega

/-! ## Runs -/

/-- **The PTS repetition alarm.**  At every PES start of a run it is raised exactly if due, exactly
    if it is never due. -/
theorem pts_alarmed_iff (P : Parts ρ) (config : AlertConfig) (rest : ρ) (is : List Input) :
    Along (PtsAlarmed P) (record (pesPush P)) (freshHandle config rest, []) is ↔
      Along (PtsTimely P) (record (pesPush P)) (freshHandle config rest, []) is := by
  refine along_iff (I := fun _ => True) (fun _ _ _ => trivial) (fun r i _ => ?_) is _ trivial
  refine forall₂_congr fun x hx => ?_
  rw [iff_false_left (not_ptsRaised hx)]

/-- A packet of PID 0x100 that starts a PES without a time stamp. -/
def pesPacket : Nat → UInt8 := fun i =>
  [0x47, 0x41, 0x00, 0x10, 0x00, 0x00, 0x01, 0xE0, 0x00, 0x00, 0x80, 0x00, 0x00].getD i 0xFF

/-- The analyzer and its PES starts, after one at one second. -/
def afterPes : MonitorHandle Unit × List (Nat × Nat) :=
  record (pesPush Parts.idle) (freshHandle plainConfig (), []) (packetOf pesPacket 1000000000)

/-- **800 ms without a PES start**: the next one is due for an alarm, and there is none. -/
theorem late_pes_unnoticed :
    PtsDue afterPes (0x100, 1800000000) ∧
      ¬ PtsRaised Parts.idle afterPes.1 (packetOf pesPacket 1800000000) ∧
      ¬ Along (PtsAlarmed Parts.idle) (record (pesPush Parts.idle)) (freshHandle plainConfig (), [])
        [packetOf pesPacket 1000000000, packetOf pesPacket 1800000000] := by
  have hdue : PtsDue afterPes (0x100, 1800000000) := by decide +kernel
  have hstart : (0x100, 1800000000) ∈
      pesHeard Parts.idle afterPes.1 (packetOf pesPacket 1800000000) := by decide +kernel
  refine ⟨hdue, not_ptsRaised hstart, ?_⟩
  rintro ⟨-, halarmed, -⟩
  exact not_ptsRaised hstart ((halarmed _ hstart).mpr hdue)

end TsAnalyzer.Monitor
