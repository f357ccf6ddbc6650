/-
  The dual-input gateway (`tsa_gateway_process_dual` in `src/tsa_gateway.c`).

  1. **assess** — every 100 ms the health of the two sources is compared, and the active source may
     SWITCH; a switch leaves `pending_discontinuity` behind;
  2. **forward** — the active source's packet, if there is one, goes to `tsp_enqueue`; the first one
     after a switch is meant to carry a discontinuity indicator.

  The two health values of a call (`none` where `tsa_take_snapshot_full` fails) are inputs, over ANY
  type with a comparison, so that a `float` that is no number is covered too.
-/
import TsAnalyzer.Lib.Run
import TsAnalyzer.Lib.Word

namespace TsAnalyzer.Failover

open Lib

/-! ## Data -/

/-- `active_index`: 0 or 1. -/
inductive Source where
  | primary
  | backup
  deriving DecidableEq

inductive FailoverMode where
  | auto
  | forcePrimary
  | forceBackup
  | manual
  deriving DecidableEq

abbrev Packet := Vector UInt8 188

/-- What `tsa_gateway_process_dual` reads of `tsa_gateway_config_t`. -/
structure GatewayConfig (H : Type) where
  enableSmartFailover : Bool
  healthThreshold : H
  switchHoldMs : Nat
  failoverMode : FailoverMode

/-- What `tsa_gateway_process_dual` reads and writes of `struct tsa_gateway`. -/
structure Gateway (H : Type) where
  cfg : GatewayConfig H
  lastRstCheckNs : Nat
  activeIndex : Source
  lastSwitchNs : Nat
  pendingDiscontinuity : Bool

/-- The arguments of a call, and the `master_health` of the two snapshots it takes. -/
structure Call (H : Type) where
  pktP : Option Packet
  pktB : Option Packet
  nowNs : Nat
  healthP : Option H
  healthB : Option H

/-- What a call does, seen from outside. -/
inductive Event where
  /-- `active_index` becomes `target`. -/
  | switched (target : Source)
  /-- `tsp_enqueue` is handed a packet of the source; `clears` if the call has just cleared
      `pending_discontinuity` for it. -/
  | enqueued (source : Source) (pkt : Packet) (clears : Bool)
  deriving DecidableEq

variable {H : Type}

def tsaGatewayCreate (cfg : GatewayConfig H) : Gateway H :=
  { cfg := cfg, lastRstCheckNs := 0, activeIndex := .primary, lastSwitchNs := 0
    pendingDiscontinuity := false }

/-! ## Assess -/

section

variable [LT H] [DecidableLT H] [Zero H]

def targetIndex (gw : Gateway H) (healthP healthB : H) : Source :=
  match gw.cfg.failoverMode with
  | .forcePrimary => .primary
  | .forceBackup => .backup
  | .auto =>
    if gw.activeIndex = .primary ∧ healthP < gw.cfg.healthThreshold ∧ healthP < healthB then .backup
    else if gw.activeIndex = .backup ∧ healthB < gw.cfg.healthThreshold ∧ healthB < healthP then
      .primary
    else gw.activeIndex
  | .manual => gw.activeIndex

/-- The 100 ms between two assessments are over. -/
def assessDue (gw : Gateway H) (call : Call H) : Bool :=
  gw.cfg.enableSmartFailover ∧ 100000000 < sub64 call.nowNs gw.lastRstCheckNs

/-- The source a call switches to, if it does. -/
def switchTo (gw : Gateway H) (call : Call H) : Option Source :=
  if assessDue gw call then
    match call.healthP with
    | some healthP =>
      let target := targetIndex gw healthP (call.healthB.getD 0)
      if target ≠ gw.activeIndex ∧
          gw.cfg.switchHoldMs * 1000000 % 2 ^ 64 < sub64 call.nowNs gw.lastSwitchNs then some target
      else none
    | none => none
  else none

/-- Health assessment and switching. -/
def assess (gw : Gateway H) (call : Call H) : Gateway H × List Event :=
  let gw1 := if assessDue gw call then { gw with lastRstCheckNs := call.nowNs } else gw
  match switchTo gw call with
  | some target =>
    ({ gw1 with activeIndex := target, lastSwitchNs := call.nowNs, pendingDiscontinuity := true },
      [.switched target])
  | none => (gw1, [])

theorem assess_of_none {gw : Gateway H} {call : Call H} (h : switchTo gw call = none) :
    (assess gw call).2 = [] ∧ (assess gw call).1.activeIndex = gw.activeIndex ∧
      (assess gw call).1.pendingDiscontinuity = gw.pendingDiscontinuity := by
  unfold assess
  rw [h]
  refine ⟨rfl, ?_, ?_⟩
  · show (if _ then _ else _ : Gateway H).activeIndex = _
    split <;> rfl
  · show (if _ then _ else _ : Gateway H).pendingDiscontinuity = _
    split <;> rfl

theorem assess_of_some {gw : Gateway H} {call : Call H} {target : Source}
    (h : switchTo gw call = some target) :
    (assess gw call).2 = [.switched target] ∧ (assess gw call).1.activeIndex = target ∧
      (assess gw call).1.pendingDiscontinuity = true := by
  unfold assess
  rw [h]
  exact ⟨rfl, rfl, rfl⟩

end

/-! ## Forward -/

/-- The packet has an adaptation field with room for flags. -/
def hasFlags (pkt : Packet) : Bool := pkt[3] &&& 0x20 ≠ 0 ∧ (0 : UInt8) < pkt[4]

def discontinuityIndicator (pkt : Packet) : Bool := hasFlags pkt ∧ pkt[5] &&& 0x80 ≠ 0

/-- The indicator is set if the packet has one. -/
def markDiscontinuity (pkt : Packet) : Packet :=
  if hasFlags pkt then pkt.set 5 (pkt[5] ||| 0x80) else pkt

def Call.packetOf (call : Call H) : Source → Option Packet
  | .primary => call.pktP
  | .backup => call.pktB

/-- The active source's packet is handed on. -/
def forward (gw : Gateway H) (call : Call H) : Gateway H × List Event :=
  match call.packetOf gw.activeIndex with
  | none => (gw, [])
  | some pkt =>
    if gw.pendingDiscontinuity then
      ({ gw with pendingDiscontinuity := false },
        [.enqueued gw.activeIndex (markDiscontinuity pkt) true])
    else (gw, [.enqueued gw.activeIndex pkt false])

variable {gw : Gateway H} {call : Call H}

theorem forward_of_none (h : call.packetOf gw.activeIndex = none) : forward gw call = (gw, []) := by
  rw [forward, h]

theorem forward_of_pending {pkt : Packet}
    (h : call.packetOf gw.activeIndex = some pkt) (hpending : gw.pendingDiscontinuity = true) :
    forward gw call = ({ gw with pendingDiscontinuity := false },
      [.enqueued gw.activeIndex (markDiscontinuity pkt) true]) := by
  rw [forward, h]
  exact if_pos hpending

theorem forward_of_clear {pkt : Packet}
    (h : call.packetOf gw.activeIndex = some pkt) (hpending : gw.pendingDiscontinuity = false) :
    forward gw call = (gw, [.enqueued gw.activeIndex pkt false]) := by
  rw [forward, h]
  exact if_neg (by rw [hpending]; exact Bool.false_ne_true)

/-- **A packet takes the mark exactly if it has flags.** -/
theorem markDiscontinuity_indicator (pkt : Packet) :
    discontinuityIndicator (markDiscontinuity pkt) = hasFlags pkt := by
  by_cases h : hasFlags pkt = true
  · have hset : ∀ b : UInt8, (b ||| 0x80) &&& 0x80 ≠ 0 := by decide +kernel
    have h3 : (pkt.set 5 (pkt[5] ||| 0x80))[3] = pkt[3] := Vector.getElem_set_ne _ _ (by decide)
    have h4 : (pkt.set 5 (pkt[5] ||| 0x80))[4] = pkt[4] := Vector.getElem_set_ne _ _ (by decide)
    have h5 : (pkt.set 5 (pkt[5] ||| 0x80))[5] = pkt[5] ||| 0x80 := Vector.getElem_set_self _
    have hflags : hasFlags (pkt.set 5 (pkt[5] ||| 0x80)) = true := by
      rw [← h]
      unfold hasFlags
      rw [h3, h4]
    rw [markDiscontinuity, if_pos h, discontinuityIndicator, h5, h, decide_eq_true_eq]
    exact ⟨hflags, hset _⟩
  · rw [markDiscontinuity, if_neg h, discontinuityIndicator]
    rw [Bool.not_eq_true] at h
    rw [h]
    exact decide_eq_false fun hand => by cases hand.1

/-! ## The call -/

def tsaGatewayProcessDual [LT H] [DecidableLT H] [Zero H] (gw : Gateway H) (call : Call H) :
    Gateway H × List Event :=
  let a := assess gw call
  let f := forward a.1 call
  (f.1, a.2 ++ f.2)

end TsAnalyzer.Failover
