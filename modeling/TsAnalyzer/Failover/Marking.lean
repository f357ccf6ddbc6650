/-
  Is a failover always MARKED for the receiver?

  Whenever `pending_discontinuity` is cleared, or the next switch comes, a packet of the source
  switched to should have gone out with its discontinuity indicator set (`FailoverMarked`).  While
  the flag is set, the last thing that happened is the switch; while it is not, the last switch has
  been answered.  What breaks this is a packet that clears the flag and has no room for the mark, or
  a switch to a source that stays silent until the next one.
-/
import TsAnalyzer.Failover.Gateway

namespace TsAnalyzer.Failover

open Lib List

/-! ## The history since a switch -/

def Event.IsSwitch : Event → Prop
  | .switched _ => True
  | .enqueued .. => False

/-- The wait for a mark ends here: the flag is cleared, or the next switch comes. -/
def Event.Settles : Event → Prop
  | .switched _ => True
  | .enqueued _ _ clears => clears = true

/-- A packet of the source, with its discontinuity indicator set. -/
def Event.Marks (source : Source) : Event → Prop
  | .switched _ => False
  | .enqueued s pkt _ => s = source ∧ discontinuityIndicator pkt = true

def SinceSwitch (past : List Event) (source : Source) (mid : List Event) : Prop :=
  (∃ old, past = old ++ .switched source :: mid) ∧ ∀ e ∈ mid, ¬ e.IsSwitch

/-- Where the wait after a switch ends, a marked packet of its source has been handed on. -/
def Signalled (past : List Event) (e : Event) : Prop :=
  e.Settles → ∀ source mid, SinceSwitch past source mid → ∃ x ∈ mid ++ [e], x.Marks source

/-- Every switch is marked. -/
def FailoverMarked (events : List Event) : Prop := Throughout Signalled events

/-- The last switch, if there is one, has been marked. -/
def Answered (past : List Event) : Prop :=
  ∀ source mid, SinceSwitch past source mid → ∃ x ∈ mid, x.Marks source

variable {past : List Event}

theorem SinceSwitch.of_switch {mid : List Event} {source target : Source}
    (h : SinceSwitch (past ++ [.switched target]) source mid) : source = target ∧ mid = [] := by
  obtain ⟨⟨old, heq⟩, hmid⟩ := h
  rcases eq_nil_or_concat mid with rfl | ⟨mid', e, rfl⟩
  · have hlast := (append_inj_right' heq rfl)
    cases hlast
    exact ⟨rfl, rfl⟩
  · rw [concat_eq_append] at heq hmid
    rw [← cons_append, ← append_assoc] at heq
    have hlast := append_inj_right' heq rfl
    cases hlast
    exact absurd trivial (hmid _ (mem_append_right _ mem_cons_self))

theorem SinceSwitch.of_other {mid : List Event} {source : Source} {e : Event}
    (he : ¬ e.IsSwitch) (h : SinceSwitch (past ++ [e]) source mid) :
    ∃ mid', mid = mid' ++ [e] ∧ SinceSwitch past source mid' := by
  obtain ⟨⟨old, heq⟩, hmid⟩ := h
  rcases eq_nil_or_concat mid with rfl | ⟨mid', e', rfl⟩
  · have hlast := append_inj_right' heq rfl
    cases hlast
    exact absurd trivial he
  · rw [concat_eq_append] at heq hmid ⊢
    rw [← cons_append, ← append_assoc] at heq
    have hlast := append_inj_right' heq rfl
    cases hlast
    exact ⟨mid', rfl, ⟨old, append_inj_left' heq rfl⟩,
      fun x hx => hmid x (mem_append_left _ hx)⟩

/-! ## One call -/

variable {H : Type}

/-- The flag and the history agree. -/
structure Tracks (gw : Gateway H) (past : List Event) : Prop where
  waiting : gw.pendingDiscontinuity = true → ∃ old, past = old ++ [.switched gw.activeIndex]
  answered : gw.pendingDiscontinuity = false → Answered past

variable {gw : Gateway H}

theorem Tracks.signalled_switch_iff (h : Tracks gw past) (target : Source) :
    Signalled past (.switched target) ↔ gw.pendingDiscontinuity = false := by
  constructor
  · intro hsig
    by_contra hpending
    rw [Bool.not_eq_false] at hpending
    obtain ⟨old, rfl⟩ := h.waiting hpending
    have hsince : SinceSwitch (old ++ [.switched gw.activeIndex]) gw.activeIndex [] :=
      ⟨⟨old, rfl⟩, fun e he => absurd he not_mem_nil⟩
    obtain ⟨x, hx, hmarks⟩ := hsig trivial _ _ hsince
    rw [nil_append, mem_singleton] at hx
    rw [hx] at hmarks
    exact hmarks
  · intro hpending _ source mid hsince
    obtain ⟨x, hx, hmarks⟩ := h.answered hpending source mid hsince
    exact ⟨x, mem_append_left _ hx, hmarks⟩

theorem Tracks.signalled_clear_iff (h : Tracks gw past)
    (hpending : gw.pendingDiscontinuity = true) (pkt : Packet) :
    Signalled past (.enqueued gw.activeIndex (markDiscontinuity pkt) true) ↔
      hasFlags pkt = true := by
  obtain ⟨old, rfl⟩ := h.waiting hpending
  rw [← markDiscontinuity_indicator]
  constructor
  · intro hsig
    have hsince : SinceSwitch (old ++ [.switched gw.activeIndex]) gw.activeIndex [] :=
      ⟨⟨old, rfl⟩, fun e he => absurd he not_mem_nil⟩
    obtain ⟨x, hx, hmarks⟩ := hsig rfl _ _ hsince
    rw [nil_append, mem_singleton] at hx
    rw [hx] at hmarks
    exact hmarks.2
  · intro hflag _ source mid hsince
    obtain ⟨rfl, rfl⟩ := hsince.of_switch
    exact ⟨_, mem_append_right _ mem_cons_self, rfl, hflag⟩

/-- The events of one call, given what happened before. -/
def SignalledAfter (past events : List Event) : Prop :=
  Throughout (fun pre e => Signalled (past ++ pre) e) events

/-- **Forward.** -/
theorem Tracks.forward (h : Tracks gw past) (call : Call H) :
    (SignalledAfter past (forward gw call).2 ↔ (gw.pendingDiscontinuity = true →
      ∀ pkt, call.packetOf gw.activeIndex = some pkt → hasFlags pkt = true)) ∧
      (SignalledAfter past (Failover.forward gw call).2 →
        Tracks (Failover.forward gw call).1 (past ++ (Failover.forward gw call).2)) := by
  cases hpkt : call.packetOf gw.activeIndex with
  | none =>
    rw [forward_of_none hpkt, append_nil]
    exact ⟨iff_of_true (throughout_nil _) (fun _ pkt hnone => by cases hnone), fun _ => h⟩
  | some pkt =>
    cases hpending : gw.pendingDiscontinuity with
    | true =>
      have hiff := h.signalled_clear_iff hpending pkt
      rw [forward_of_pending hpkt hpending, SignalledAfter, throughout_singleton, append_nil,
        hiff]
      refine ⟨⟨?_, ?_⟩, fun hflag => ⟨fun hfalse => ?_, fun _ => ?_⟩⟩
      · intro hflag _ pkt' heq
        cases heq
        exact hflag
      · intro hall
        exact hall rfl pkt rfl
      · cases hfalse
      · intro source mid hsince
        obtain ⟨mid', rfl, hsince'⟩ := hsince.of_other id
        exact hiff.mpr hflag rfl source mid' hsince'
    | false =>
      rw [forward_of_clear hpkt hpending, SignalledAfter, throughout_singleton]
      refine ⟨iff_of_true ?_ ?_, fun _ => ⟨fun hp => ?_, fun _ => ?_⟩⟩
      · intro hsettles
        cases hsettles
      · intro hfalse
        cases hfalse
      · rw [hpending] at hp
        cases hp
      · intro source mid hsince
        obtain ⟨mid', rfl, hsince'⟩ := hsince.of_other id
        obtain ⟨x, hx, hmarks⟩ := h.answered hpending source mid' hsince'
        exact ⟨x, mem_append_left _ hx, hmarks⟩

section

variable [LT H] [DecidableLT H] [Zero H]

/-- What a call must find: no switch while the last one is not marked yet, and where a mark is due,
    a packet that can carry it. -/
def SwitchMarked (gw : Gateway H) (call : Call H) : Prop :=
  (switchTo gw call ≠ none → gw.pendingDiscontinuity = false) ∧
    (gw.pendingDiscontinuity = true ∨ switchTo gw call ≠ none →
      ∀ pkt, call.packetOf ((switchTo gw call).getD gw.activeIndex) = some pkt →
        hasFlags pkt = true)

/-- **Assess.** -/
theorem Tracks.assess (h : Tracks gw past) (call : Call H) :
    (SignalledAfter past (assess gw call).2 ↔
      (switchTo gw call ≠ none → gw.pendingDiscontinuity = false)) ∧
      Tracks (Failover.assess gw call).1 (past ++ (Failover.assess gw call).2) := by
  cases hswitch : switchTo gw call with
  | none =>
    obtain ⟨hevents, hactive, hpending⟩ := assess_of_none hswitch
    rw [hevents, append_nil]
    refine ⟨iff_of_true (throughout_nil _) fun hne => absurd rfl hne, ?_, ?_⟩
    · rw [hactive, hpending]
      exact h.waiting
    · rw [hpending]
      exact h.answered
  | some target =>
    obtain ⟨hevents, hactive, hpending⟩ := assess_of_some hswitch
    rw [hevents]
    refine ⟨?_, fun _ => ⟨past, by rw [hactive]⟩, fun hfalse => ?_⟩
    · rw [SignalledAfter, throughout_singleton, append_nil, h.signalled_switch_iff]
      exact ⟨fun hp _ => hp, fun hp => hp (Option.some_ne_none _)⟩
    · rw [hpending] at hfalse
      cases hfalse

/-- **One call** is in order exactly if it finds what it must, and then flag and history agree
    after it. -/
theorem Tracks.call (h : Tracks gw past) (call : Call H) :
    (SignalledAfter past (tsaGatewayProcessDual gw call).2 ↔ SwitchMarked gw call) ∧
      (SignalledAfter past (tsaGatewayProcessDual gw call).2 →
        Tracks (tsaGatewayProcessDual gw call).1 (past ++ (tsaGatewayProcessDual gw call).2)) := by
  obtain ⟨hassess, htracks⟩ := h.assess call
  obtain ⟨hforward, htracks'⟩ := htracks.forward call
  have hpending : (Failover.assess gw call).1.pendingDiscontinuity = true ↔
      gw.pendingDiscontinuity = true ∨ switchTo gw call ≠ none := by
    cases hswitch : switchTo gw call with
    | none =>
      rw [(assess_of_none hswitch).2.2]
      exact ⟨.inl, fun hor => hor.resolve_right fun hne => hne rfl⟩
    | some target => exact iff_of_true (assess_of_some hswitch).2.2 (.inr (Option.some_ne_none _))
  have hactive : (Failover.assess gw call).1.activeIndex =
      (switchTo gw call).getD gw.activeIndex := by
    cases hswitch : switchTo gw call with
    | none => exact (assess_of_none hswitch).2.1
    | some target => exact (assess_of_some hswitch).2.1
  have hsplit : SignalledAfter past (tsaGatewayProcessDual gw call).2 ↔
      SignalledAfter past (Failover.assess gw call).2 ∧
        SignalledAfter (past ++ (Failover.assess gw call).2)
          (Failover.forward (Failover.assess gw call).1 call).2 := by
    show Throughout _ ((Failover.assess gw call).2 ++ _) ↔ _
    rw [throughout_append_iff]
    simp only [SignalledAfter, append_assoc]
  constructor
  · rw [hsplit, hassess, hforward, hpending, hactive]
    exact Iff.rfl
  · intro hsig
    have hboth := hsplit.mp hsig
    have hend := htracks' hboth.2
    rw [append_assoc] at hend
    exact hend

/-! ## The run -/

/-- **Failover is marked, exactly where it is**: in a run of a new gateway every switch is followed
    by a marked packet of its source, before the flag is cleared and before the next switch, iff no
    call switches while the flag is still set, and every packet that clears it has an adaptation
    field that is not empty. -/
theorem failover_marked_iff (cfg : GatewayConfig H) (calls : List (Call H)) :
    FailoverMarked (run tsaGatewayProcessDual (tsaGatewayCreate cfg) calls).2 ↔
      Along SwitchMarked (fun gw call => (tsaGatewayProcessDual gw call).1) (tsaGatewayCreate cfg)
        calls := by
  have hstart : Tracks (tsaGatewayCreate cfg) [] := by
    refine ⟨(fun hfalse => by cases hfalse), fun _ source mid hsince => ?_⟩
    obtain ⟨⟨old, heq⟩, -⟩ := hsince
    exact absurd heq.symm (append_ne_nil_of_right_ne_nil _ (cons_ne_nil _ _))
  have hrecord := foldl_record (tsaGatewayProcessDual (H := H)) calls (tsaGatewayCreate cfg, [])
  have hevents : (run tsaGatewayProcessDual (tsaGatewayCreate cfg) calls).2 =
      (calls.foldl (record tsaGatewayProcessDual) (tsaGatewayCreate cfg, [])).2 := by
    rw [hrecord, nil_append]
  rw [FailoverMarked, hevents, throughout_record_iff (throughout_nil _),
    ← along_record_iff (r := (tsaGatewayCreate cfg, []))]
  exact along_iff_while (I := fun r : Gateway H × List Event => Tracks r.1 r.2)
    (fun r call h hsig => (h.call call).2 hsig) (fun r call h => (h.call call).1) calls _ hstart

end

/-- A packet of PID 0x100 whose fourth to sixth bytes are given. -/
def packetWith (control length flags : UInt8) : Packet :=
  Vector.ofFn fun i => [0x47, 0x01, 0x00, control, length, flags].getD i.val 0xFF

def forcedBackup : GatewayConfig Nat :=
  { enableSmartFailover := true, healthThreshold := 70, switchHoldMs := 100
    failoverMode := .forceBackup }

def bothSides (pkt : Packet) (nowMs : Nat) : Call Nat :=
  { pktP := some pkt, pktB := some pkt, nowNs := nowMs * 1000000, healthP := some 100
    healthB := some 100 }

theorem not_marked_of_first {events : List Event} {s : Source} {p : Packet}
    (heq : events = [.switched s, .enqueued s p true])
    (hflag : discontinuityIndicator p = false) : ¬ FailoverMarked events := by
  intro hmarked
  obtain ⟨x, hx, hmarks⟩ := hmarked [.switched s] _ [] heq rfl s []
    ⟨⟨[], rfl⟩, fun e he => absurd he not_mem_nil⟩
  rw [nil_append, mem_singleton] at hx
  rw [hx] at hmarks
  exact Bool.false_ne_true (hflag.symm.trans hmarks.2)

/-- The switch meets a packet with payload only: it goes out as it came, and the flag is cleared;
    so does a packet with an adaptation field of length 0. -/
theorem payload_only_unmarked :
    (¬ FailoverMarked (run tsaGatewayProcessDual (tsaGatewayCreate forcedBackup)
      [bothSides (packetWith 0x10 0x00 0x00) 200]).2) ∧
    (¬ FailoverMarked (run tsaGatewayProcessDual (tsaGatewayCreate forcedBackup)
      [bothSides (packetWith 0x30 0x00 0x00) 200]).2) := by
  constructor
  · exact not_marked_of_first (s := .backup) (p := packetWith 0x10 0x00 0x00) (by decide +kernel)
      (by decide +kernel)
  · exact not_marked_of_first (s := .backup) (p := packetWith 0x30 0x00 0x00) (by decide +kernel)
      (by decide +kernel)

end TsAnalyzer.Failover
