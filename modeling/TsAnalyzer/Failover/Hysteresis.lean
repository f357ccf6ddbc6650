/-
  Hysteresis of the gateway: changes of the active source are apart, and what is handed on is what
  the active source sent.

  A change takes an assessment, and assessments are more than 100 ms apart: the timer is restarted
  by EVERY assessment, also by one that changes nothing, so it is never behind the last change
  (`Timed`).  Two changes are more than the hold time apart by the second timer.
-/
import TsAnalyzer.Failover.Gateway

namespace TsAnalyzer.Failover

open Lib List

variable {H : Type} [LT H] [DecidableLT H] [Zero H]

/-- The gateway, with the time of the last change of `active_index`. -/
structure Watch (H : Type) where
  gw : Gateway H
  changed : Option Nat

def watchStep (w : Watch H) (call : Call H) : Watch H :=
  let gw := (tsaGatewayProcessDual w.gw call).1
  ⟨gw, if gw.activeIndex = w.gw.activeIndex then w.changed else some call.nowNs⟩

/-- `out` is `pkt`, but for the discontinuity_indicator. -/
def SameButIndicator (pkt out : Packet) : Prop :=
  ∀ (i : Nat) (h : i < 188), if i = 5 then out.get ⟨i, h⟩ &&& 0x7f = pkt.get ⟨i, h⟩ &&& 0x7f
    else out.get ⟨i, h⟩ = pkt.get ⟨i, h⟩

/-- A change comes more than the hold time and more than 100 ms after the last one, and a packet
    that is handed on is the active source's. -/
def Steady (w : Watch H) (call : Call H) : Prop :=
  (∀ t, w.changed = some t → (watchStep w call).gw.activeIndex ≠ w.gw.activeIndex →
    t + w.gw.cfg.switchHoldMs * 1000000 < call.nowNs ∧ t + 100000000 < call.nowNs) ∧
  ∀ source out clears, .enqueued source out clears ∈ (tsaGatewayProcessDual w.gw call).2 →
    source = (watchStep w call).gw.activeIndex ∧
      ∃ pkt, call.packetOf source = some pkt ∧ SameButIndicator pkt out

/-- The timers, at a time `now` or later. -/
structure Timed (cfg : GatewayConfig H) (w : Watch H) (now : Nat) : Prop where
  cfg : w.gw.cfg = cfg
  check : w.gw.lastRstCheckNs ≤ now
  switch : w.gw.lastSwitchNs ≤ now
  changed : ∀ t, w.changed = some t → w.gw.lastSwitchNs = t ∧ t ≤ w.gw.lastRstCheckNs

theorem mark_same (pkt : Packet) : SameButIndicator pkt (markDiscontinuity pkt) := by
  have hbits : ∀ b : UInt8, (b ||| 0x80) &&& 0x7f = b &&& 0x7f := by decide +kernel
  intro i h
  unfold markDiscontinuity
  by_cases hflags : hasFlags pkt = true
  · rw [if_pos hflags]
    split
    · rename_i hi
      subst hi
      exact (congrArg (· &&& 0x7f) (Vector.getElem_set_self _)).trans (hbits _)
    · rename_i hi
      exact Vector.getElem_set_ne _ _ (Ne.symm hi)
  · rw [if_neg hflags]
    split <;> rfl

omit [LT H] [DecidableLT H] [Zero H] in
theorem forward_spec (gw : Gateway H) (call : Call H) :
    (∃ p, (forward gw call).1 = { gw with pendingDiscontinuity := p }) ∧
      ∀ source out clears, .enqueued source out clears ∈ (forward gw call).2 →
        source = gw.activeIndex ∧
          ∃ pkt, call.packetOf source = some pkt ∧ SameButIndicator pkt out := by
  unfold forward
  split
  · exact ⟨⟨_, rfl⟩, fun _ _ _ h => absurd h not_mem_nil⟩
  · rename_i pkt hpkt
    split
    · refine ⟨⟨_, rfl⟩, fun source out clears h => ?_⟩
      obtain ⟨rfl, rfl, -⟩ := Event.enqueued.inj (mem_singleton.mp h)
      exact ⟨rfl, pkt, hpkt, mark_same pkt⟩
    · refine ⟨⟨_, rfl⟩, fun source out clears h => ?_⟩
      obtain ⟨rfl, rfl, -⟩ := Event.enqueued.inj (mem_singleton.mp h)
      exact ⟨rfl, out, hpkt, fun i h => by split <;> rfl⟩

theorem assess_cases (gw : Gateway H) (call : Call H) :
    (assess gw call).1.cfg = gw.cfg ∧
    ((assess gw call).1.activeIndex = gw.activeIndex ∧
        (assess gw call).1.lastSwitchNs = gw.lastSwitchNs ∧
        ((assess gw call).1.lastRstCheckNs = gw.lastRstCheckNs ∨
          (assess gw call).1.lastRstCheckNs = call.nowNs) ∨
      100000000 < sub64 call.nowNs gw.lastRstCheckNs ∧
        gw.cfg.switchHoldMs * 1000000 % 2 ^ 64 < sub64 call.nowNs gw.lastSwitchNs ∧
        (assess gw call).1.activeIndex ≠ gw.activeIndex ∧
        (assess gw call).1.lastSwitchNs = call.nowNs ∧
        (assess gw call).1.lastRstCheckNs = call.nowNs) := by
  unfold assess
  dsimp only
  cases hswitch : switchTo gw call with
  | none =>
    refine ⟨?_, .inl ⟨?_, ?_, ?_⟩⟩
    all_goals dsimp only; split
    all_goals first | rfl | exact .inr rfl | exact .inl rfl
  | some target =>
    unfold switchTo at hswitch
    split at hswitch
    · rename_i hdue
      split at hswitch
      · dsimp only at hswitch
        split at hswitch
        · rename_i hhold
          cases hswitch
          rw [if_pos hdue]
          exact ⟨rfl, .inr ⟨(of_decide_eq_true hdue).2, hhold.2, hhold.1, rfl, rfl⟩⟩
        · cases hswitch
      · cases hswitch
    · cases hswitch

variable {cfg : GatewayConfig H} {w : Watch H} {call : Call H}

theorem watchStep_assessed (w : Watch H) (call : Call H) :
    ∃ p, (watchStep w call).gw = { (assess w.gw call).1 with pendingDiscontinuity := p } :=
  (forward_spec (assess w.gw call).1 call).1

theorem Timed.step (hhold : cfg.switchHoldMs < 2 ^ 32) (h : Timed cfg w call.nowNs)
    (hword : call.nowNs < 2 ^ 64) : Timed cfg (watchStep w call) call.nowNs ∧ Steady w call := by
  obtain ⟨p, hgw⟩ := watchStep_assessed w call
  obtain ⟨hcfg, hcases⟩ := assess_cases w.gw call
  have hsent : ∀ source out clears,
      .enqueued source out clears ∈ (tsaGatewayProcessDual w.gw call).2 →
        source = (watchStep w call).gw.activeIndex ∧
          ∃ pkt, call.packetOf source = some pkt ∧ SameButIndicator pkt out := by
    intro source out clears hmem
    rw [hgw]
    refine (forward_spec (assess w.gw call).1 call).2 source out clears ?_
    refine (mem_append.mp hmem).resolve_left fun hassess => ?_
    unfold assess at hassess
    dsimp only at hassess
    split at hassess
    · cases mem_singleton.mp hassess
    · cases hassess
  have hchanged : (watchStep w call).changed = if (watchStep w call).gw.activeIndex =
      w.gw.activeIndex then w.changed else some call.nowNs := rfl
  rw [hgw] at hchanged
  dsimp only at hchanged
  rcases hcases with ⟨hsame, hswitch, hcheck⟩ | ⟨hcheck, hswitch, hne, hlast, hrst⟩
  · rw [if_pos hsame] at hchanged
    refine ⟨⟨?_, ?_, ?_, ?_⟩, ?_, hsent⟩
    all_goals rw [hgw]
    · exact hcfg.trans h.cfg
    · rcases hcheck with hcheck | hcheck
      · exact hcheck ▸ h.check
      · exact hcheck ▸ le_rfl
    · exact hswitch ▸ h.switch
    · rw [hchanged]
      intro t ht
      obtain ⟨hlast, hle⟩ := h.changed t ht
      refine ⟨hswitch.trans hlast, ?_⟩
      rcases hcheck with hcheck | hcheck
      · exact hcheck ▸ hle
      · exact hcheck ▸ hle.trans h.check
    · exact fun t _ hne => absurd hsame hne
  · rw [if_neg hne] at hchanged
    refine ⟨⟨?_, ?_, ?_, ?_⟩, ?_, hsent⟩
    · rw [hgw]; exact hcfg.trans h.cfg
    · rw [hgw]; exact hrst.le
    · rw [hgw]; exact hlast.le
    · rw [hchanged, hgw]
      intro t ht
      cases ht
      exact ⟨hlast, hrst.ge⟩
    · intro t ht _
      obtain ⟨hlast, hle⟩ := h.changed t ht
      have hck := h.check
      rw [sub64_of_le h.check hword] at hcheck
      rw [sub64_of_le h.switch hword, h.cfg, Nat.mod_eq_of_lt (by omega)] at hswitch
      rw [h.cfg]
      omega

end TsAnalyzer.Failover
