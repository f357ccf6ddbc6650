/-
  The mask of active alerts in a snapshot, against the alerts when `tsa_commit_snapshot` returns.

  **Program** — the mask is computed with a locked clock and 1000 packets only; otherwise an
  earlier one stays.  It is published, and `tsa_alert_check_resolutions` comes LAST.
-/
import TsAnalyzer.Monitor.Continuity
import TsAnalyzer.Monitor.Resolver

namespace TsAnalyzer.Monitor

open Lib Alarm Packet Pipeline List

variable {ρ : Type}

/-! ## The mask -/

/-- The mask over the alerts, as `tsa_eval_tr101290_alarms` computes it. -/
def activeAlertsMask (alerts : AlertId → AlertState) : Nat :=
  AlertId.all.foldl (fun mask i =>
    if (alerts i).status = .firing then mask ||| tsaAlertGetMask i else mask) 0

theorem getMask_and_ne_zero (i j : AlertId) :
    tsaAlertGetMask i &&& tsaAlertGetMask j ≠ 0 ↔ i = j := by
  have hall : ∀ i ∈ AlertId.all, ∀ j ∈ AlertId.all,
      tsaAlertGetMask i &&& tsaAlertGetMask j ≠ 0 ↔ i = j := by decide
  exact hall i (AlertId.mem_all i) j (AlertId.mem_all j)

theorem or_and_ne_zero (a b c : Nat) : (a ||| b) &&& c ≠ 0 ↔ a &&& c ≠ 0 ∨ b &&& c ≠ 0 := by
  rw [Nat.and_or_distrib_right, ne_eq, Nat.or_eq_zero_iff, not_and_or]

theorem foldl_mask_bit (alerts : AlertId → AlertState) (i : AlertId) (ids : List AlertId)
    (mask : Nat) :
    ids.foldl (fun mask i => if (alerts i).status = .firing then mask ||| tsaAlertGetMask i
      else mask) mask &&& tsaAlertGetMask i ≠ 0 ↔
      mask &&& tsaAlertGetMask i ≠ 0 ∨ (i ∈ ids ∧ (alerts i).status = .firing) := by
  induction ids generalizing mask with
  | nil => simp only [List.foldl_nil, List.not_mem_nil, false_and, or_false]
  | cons j ids ih =>
    rw [List.foldl_cons, ih, List.mem_cons]
    by_cases hj : (alerts j).status = .firing
    · rw [if_pos hj, or_and_ne_zero, getMask_and_ne_zero]
      constructor
      · rintro ((hmask | rfl) | ⟨hi, hfiring⟩)
        · exact Or.inl hmask
        · exact Or.inr ⟨Or.inl rfl, hj⟩
        · exact Or.inr ⟨Or.inr hi, hfiring⟩
      · rintro (hmask | ⟨rfl | hi, hfiring⟩)
        · exact Or.inl (Or.inl hmask)
        · exact Or.inl (Or.inr rfl)
        · exact Or.inr ⟨hi, hfiring⟩
    · rw [if_neg hj]
      refine or_congr_right (and_congr_left fun hfiring => ⟨Or.inr, ?_⟩)
      rintro (rfl | hi)
      · exact absurd hfiring hj
      · exact hi

theorem mask_bit (alerts : AlertId → AlertState) (i : AlertId) :
    activeAlertsMask alerts &&& tsaAlertGetMask i ≠ 0 ↔ (alerts i).status = .firing := by
  rw [activeAlertsMask, foldl_mask_bit, Nat.zero_and]
  simp only [ne_eq, not_true_eq_false, false_or, AlertId.mem_all, true_and]

/-! ## The snapshot -/

/-- The mask of `live`, and those in the two buffers. -/
structure MaskBuffers where
  live : Nat
  buffers : Bool → Nat
  activeIdx : Bool

def MaskBuffers.tsaTakeSnapshotFull (b : MaskBuffers) : Nat := b.buffers b.activeIdx

/-- `tsa_commit_snapshot`, as far as the mask goes. -/
def MaskBuffers.commit (P : Parts ρ) (h : MonitorHandle ρ) (n : Nat) (b : MaskBuffers) :
    MaskBuffers :=
  let live := if Gated P h n then b.live else activeAlertsMask (evaluated P h n).alarms.alerts
  ⟨live, Function.update b.buffers (!b.activeIdx) live, !b.activeIdx⟩

/-- The bits of the published mask are the alerts that fire when the commit returns. -/
def Truthful (P : Parts ρ) (h : MonitorHandle ρ) (n : Nat) (b : MaskBuffers) : Prop :=
  ∀ i, (b.commit P h n).tsaTakeSnapshotFull &&& tsaAlertGetMask i ≠ 0 ↔
    ((tsaCommitSnapshot P h n).alarms.alerts i).status = .firing

theorem commit_published (P : Parts ρ) (h : MonitorHandle ρ) (n : Nat) (b : MaskBuffers) :
    (b.commit P h n).tsaTakeSnapshotFull =
      if Gated P h n then b.live else activeAlertsMask (evaluated P h n).alarms.alerts := by
  rw [MaskBuffers.tsaTakeSnapshotFull, MaskBuffers.commit]
  exact Function.update_self ..

/-- **The published mask**, for every state of handle and buffers, is truthful exactly if: behind a
    closed gate the old mask shows what times out, and what fires and is not overdue; and otherwise
    what times out fired before (PID apart), and what fires and is overdue times out again. -/
theorem mask_truthful_iff (P : Parts ρ) (h : MonitorHandle ρ) (n : Nat) (b : MaskBuffers) :
    Truthful P h n b ↔
      if Gated P h n then
        ∀ i, b.live &&& tsaAlertGetMask i ≠ 0 ↔ TimesOut P h n i ∨
          ((h.alarms.alerts i).status = .firing ∧ ¬ Overdue h.alarms.stcNs (h.alarms.alerts i))
      else
        ∀ i, (i ≠ .pid → TimesOut P h n i → (h.alarms.alerts i).status = .firing) ∧
          ((h.alarms.alerts i).status = .firing → Overdue h.alarms.stcNs (h.alarms.alerts i) →
            TimesOut P h n i) := by
  unfold Truthful
  rw [commit_published]
  simp only [commit_firing_before]
  split
  · exact Iff.rfl
  · next hgate =>
    refine forall_congr' fun i => ?_
    rw [mask_bit]
    by_cases hi : i = .pid
    · subst hi
      obtain ⟨hfresh, hsame⟩ := evaluated_pid P h n
      by_cases hout : TimesOut P h n .pid
      · have hfiring := (hfresh hout).1
        simp [hout, hfiring]
      · rw [hsame hout]
        simp [hout]
    · rw [show (evaluated P h n).alarms.alerts i = h.alarms.alerts i from
        (evalAlarms_keeps P (measured P h n)).1 i hi]
      by_cases hfiring : (h.alarms.alerts i).status = .firing
      · by_cases hover : Overdue h.alarms.stcNs (h.alarms.alerts i)
        · simp [hfiring, hover]
        · simp [hfiring, hover]
      · simp [hfiring, hi]

/-- An alert of a lost packet, and then a snapshot before the clock has locked. -/
def afterGap : MonitorHandle Unit :=
  [packetOf (mediaPacket 0) 0, packetOf (mediaPacket 2) 0].foldl (inputStep Parts.idle)
    (freshHandle plainConfig ())

/-- **The snapshot shows no alert**, while CC fires. -/
theorem firing_not_shown :
    (MaskBuffers.commit Parts.idle afterGap 1 ⟨0, fun _ => 0, false⟩).tsaTakeSnapshotFull = 0 ∧
      ((tsaCommitSnapshot Parts.idle afterGap 1).alarms.alerts .cc).status = .firing ∧
      ¬ Truthful Parts.idle afterGap 1 ⟨0, fun _ => 0, false⟩ := by
  have hgate : Gated Parts.idle afterGap 1 := Or.inl rfl
  have hmask : (MaskBuffers.commit Parts.idle afterGap 1
      ⟨0, fun _ => 0, false⟩).tsaTakeSnapshotFull = 0 := by
    rw [commit_published, if_pos hgate]
  have hfiring : ((tsaCommitSnapshot Parts.idle afterGap 1).alarms.alerts .cc).status =
      .firing := by
    rw [commit_firing_before]
    exact Or.inr (by decide +kernel)
  refine ⟨hmask, hfiring, fun htrue => ?_⟩
  have hbit := (htrue .cc).mpr hfiring
  rw [hmask, Nat.zero_and] at hbit
  exact hbit rfl

end TsAnalyzer.Monitor
