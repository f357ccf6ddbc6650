/-
  The continuity counters of `live` against the packets the TR 101 290 plugin finds out of order.

  `live->cc_error.count` and `live->pid_cc_errors` are what the snapshot, the JSON report and the
  Prometheus exporter show.  The plugin raises the alert of a continuity error and counts nothing,
  and neither does anybody else.
-/
import TsAnalyzer.Monitor.Handle

namespace TsAnalyzer.Monitor

open Lib Alarm Packet Pipeline Tr101290

variable {ρ : Type}

/-- The PID of the packet, if the plugin classifies it as lost or out of order, without
    `ignore_next_cc` or discontinuity_indicator. -/
def ccErrorHeard (P : Parts ρ) (h : MonitorHandle ρ) : Input → List Nat
  | .packet m pkt n =>
    match heard P h (m.byte pkt) n with
    | some res =>
      if (h.rest.watch.tracks res.pid).CcError (m.byte pkt) res then [res.pid] else []
    | none => []
  | _ => []

/-- The analyzer, and the continuity errors it finds. -/
def ccPush (P : Parts ρ) (h : MonitorHandle ρ) (i : Input) : MonitorHandle ρ × List Nat :=
  (inputStep P h i, ccErrorHeard P h i)

/-- The counters agree with the errors found so far, in total and for each PID. -/
def CcCounted (h : MonitorHandle ρ) (errors : List Nat) : Prop :=
  h.rest.watch.ccErrorCount = errors.length ∧
    ∀ pid, h.rest.watch.pidCcErrors pid = errors.count pid

theorem cc_counters_unwritten (P : Parts ρ) (config : AlertConfig) (rest : ρ) (is : List Input) :
    (run (ccPush P) (freshHandle config rest) is).1.rest.watch.ccErrorCount = 0 ∧
      (run (ccPush P) (freshHandle config rest) is).1.rest.watch.pidCcErrors = fun _ => 0 := by
  rw [run_fst]
  have hzero : ∀ (is : List Input) (h : MonitorHandle ρ),
      h.rest.watch.ccErrorCount = 0 ∧ h.rest.watch.pidCcErrors = (fun _ => 0) →
      (is.foldl (fun h i => (ccPush P h i).1) h).rest.watch.ccErrorCount = 0 ∧
        (is.foldl (fun h i => (ccPush P h i).1) h).rest.watch.pidCcErrors = fun _ => 0 := by
    intro is
    induction is with
    | nil => exact fun h hh => hh
    | cons i is ih =>
      intro h hh
      obtain ⟨hcount, hpids, -⟩ := inputStep_unwritten P h i
      refine ih (inputStep P h i) ⟨?_, ?_⟩
      · rw [hcount, hh.1]
      · rw [hpids, hh.2]
  exact hzero is (freshHandle config rest) ⟨rfl, rfl⟩

/-- **Continuity accounting**: after any sequence of packets and other calls, the counters agree
    with the errors found exactly when none was found. -/
theorem cc_counted_iff (P : Parts ρ) (config : AlertConfig) (rest : ρ) (is : List Input) :
    CcCounted (run (ccPush P) (freshHandle config rest) is).1
        (run (ccPush P) (freshHandle config rest) is).2 ↔
      (run (ccPush P) (freshHandle config rest) is).2 = [] := by
  obtain ⟨hcount, hpids⟩ := cc_counters_unwritten P config rest is
  constructor
  · rintro ⟨htotal, -⟩
    rw [hcount] at htotal
    exact List.eq_nil_of_length_eq_zero htotal.symm
  · intro hnone
    refine ⟨?_, fun pid => ?_⟩
    · rw [hcount, hnone]
      rfl
    · rw [hpids, hnone]
      rfl

/-- A packet of PID 0x100 with payload and this continuity counter. -/
def mediaPacket (cc : UInt8) : Nat → UInt8 := fun i => [0x47, 0x01, 0x00, 0x10 ||| cc].getD i 0

/-- **A gap is not counted**: counter 0, then counter 2. -/
theorem gap_not_counted :
    let r := run (ccPush Parts.idle) (freshHandle plainConfig ())
      [packetOf (mediaPacket 0) 0, packetOf (mediaPacket 2) 0]
    r.2 = [0x100] ∧ r.1.rest.watch.ccErrorCount = 0 ∧ r.1.rest.watch.pidCcErrors 0x100 = 0 := by
  decide +kernel

end TsAnalyzer.Monitor
