/-
  Continuity alarms of streams that follow the counter rules of ISO/IEC 13818-1.

  1. **Specification** — `Follows p q`: what the counter of `q` may be behind `p` on the same PID;
     null packets carry any counter.
  2. **Program** — the plugin compares each packet with the last one of its PID.  It makes no
     exception for null packets, does not see what the PID filter drops, and a field length of 255
     hides the discontinuity flag.
-/
import TsAnalyzer.Monitor.TableAlarms
import TsAnalyzer.Packet.Pcr

namespace TsAnalyzer.Monitor

open Function

open Lib Alarm Essence Packet Pipeline
open Tr101290

variable {ρ : Type}

/-! ## Specification -/

/-- `continuity_counter`. -/
def counterOf (p : Nat → UInt8) : Nat := (p 3 &&& 0x0F).toNat

def nullPid : Nat := 0x1FFF

/-- `discontinuity_indicator` is set. -/
def Flagged (p : Nat → UInt8) : Prop := p 3 &&& 0x20 ≠ 0 ∧ p 4 ≠ 0 ∧ p 5 &&& 0x80 ≠ 0
deriving Decidable

/-- The counter of `q` may follow that of `p`: any value with the indicator, the next one or the
    same (a duplicate) on a packet with payload, the same on one without. -/
def Follows (p q : Nat → UInt8) : Prop :=
  Flagged q ∨ counterOf q = counterOf p ∨
    (q 3 &&& 0x10 ≠ 0 ∧ counterOf q = (counterOf p + 1) % 16)
deriving Decidable

/-- The packet that a call brings, if it has a sync byte. -/
def Input.tsPacket : Input → Option (Nat → UInt8)
  | .packet m pkt _ => if m.byte pkt 0 = 0x47 then some (m.byte pkt) else none
  | _ => none

/-- The decoded packet of a call, if it gets to the plugins. -/
def heardOf (P : Parts ρ) (h : MonitorHandle ρ) : Input → Option DecodeResult
  | .packet m pkt n => heard P h (m.byte pkt) n
  | _ => none

/-- The last packet of each PID, and whether it got to the plugins. -/
abbrev LastPackets := Nat → Option ((Nat → UInt8) × Bool)

def lastStep (P : Parts ρ) (r : MonitorHandle ρ × LastPackets) (i : Input) :
    MonitorHandle ρ × LastPackets :=
  (inputStep P r.1 i, match i.tsPacket with
    | some p => update r.2 (pidOf p) (some (p, (heardOf P r.1 i).isSome))
    | none => r.2)

/-- The counter of a packet may follow that of the last packet of its PID. -/
def Legal (r : MonitorHandle ρ × LastPackets) (i : Input) : Prop :=
  ∀ p ∈ i.tsPacket, pidOf p ≠ nullPid → ∀ x ∈ r.2 (pidOf p), Follows x.1 p
deriving Decidable

/-- The call leaves `TSA_ALERT_CC` off. -/
def CcOff (P : Parts ρ) (r : MonitorHandle ρ × LastPackets) (i : Input) : Prop :=
  ((inputStep P r.1 i).alarms.alerts .cc).status = .off
deriving Decidable

/-- A null packet, a packet behind one that the PID filter dropped, or an adaptation field of
    length 255. -/
def Exposed (last : LastPackets) (p : Nat → UInt8) : Prop :=
  pidOf p = nullPid ∨ (∃ x ∈ last (pidOf p), x.2 = false) ∨ (p 3 &&& 0x20 ≠ 0 ∧ p 4 = 255)
deriving Decidable

/-- The plugin classifies the packet as an error, and SYNC does not hide the report. -/
def CcReported (h : MonitorHandle ρ) (p : Nat → UInt8) (res : DecodeResult) : Prop :=
  (h.rest.watch.tracks res.pid).CcError p res ∧
    tsaAlertIsSuppressedByTree h.alarms.toAlerts .cc = false
deriving Decidable

def NoneExposed (P : Parts ρ) (r : MonitorHandle ρ × LastPackets) (i : Input) : Prop :=
  ∀ p ∈ i.tsPacket, ∀ res ∈ heardOf P r.1 i, Exposed r.2 p → ¬ CcReported r.1 p res
deriving Decidable

/-! ## One packet -/

variable {P : Parts ρ} {h : MonitorHandle ρ} {p q : Nat → UInt8} {n : Nat} {res : DecodeResult}

theorem discontinuity_of_flagged (hflag : Flagged p) (hlen : ¬ (p 3 &&& 0x20 ≠ 0 ∧ p 4 = 255)) :
    discontinuityOf p = true := by
  obtain ⟨haf, hpos, hbit⟩ := hflag
  have hlength : 2 ≤ afLenOf p := by
    refine (afLenOf_ge_iff p (by decide) (by decide)).mpr ⟨haf, ?_, fun hmax => hlen ⟨haf, ?_⟩⟩
    · have hne : (p 4).toNat ≠ 0 := fun hzero => hpos (UInt8.toNat_inj.mp hzero)
      omega
    · exact UInt8.toNat_inj.mp hmax
  exact decide_eq_true ⟨hlength, hbit⟩

theorem tsaDecodePacket_cc (p : Nat → UInt8) (ph : PesHeader) (u : PtsUnroll) :
    (tsaDecodePacket p ph u).1.cc = counterOf p := by
  have hpure : (tsaDecodePacketPure p ph).cc = counterOf p := by
    unfold tsaDecodePacketPure
    simp only
    split
    · split <;> rfl
    · rfl
  unfold tsaDecodePacket
  simp only
  split <;> exact hpure

theorem heard_cc (hheard : heard P h p n = some res) : p 0 = 0x47 ∧ res.cc = counterOf p := by
  obtain ⟨d, hd⟩ : ∃ d, d =
      decode P.engines (tick P.engines (syncGood (arrive P.engines h n)) n) p := ⟨_, rfl⟩
  have hintake : intake P.engines h p n =
      if p 0 ≠ 0x47 then .noSync (syncError (arrive P.engines h n))
      else if P.engines.pidDropped (countPacket d.1).rest d.2.pid then
        .filtered (countPacket d.1) d.2
      else .accepted (observe P.engines (countPacket d.1) d.2 p n) d.2 := by
    rw [hd]
    rfl
  by_cases hsync : p 0 = 0x47
  · rw [if_neg (not_not_intro hsync)] at hintake
    refine ⟨hsync, ?_⟩
    by_cases hdrop : P.engines.pidDropped (countPacket d.1).rest d.2.pid
    · rw [heard, hintake, if_pos hdrop] at hheard
      cases hheard
    · rw [heard, hintake, if_neg hdrop] at hheard
      cases hheard
      rw [hd]
      exact tsaDecodePacket_cc p _ _
  · rw [heard, hintake, if_pos hsync] at hheard
    cases hheard

/-- **A legal counter is no error**, behind a packet whose counter the track has. -/
theorem Follows.no_error {t : TrTrack} (hfollows : Follows q p)
    (hlen : ¬ (p 3 &&& 0x20 ≠ 0 ∧ p 4 = 255)) (hlast : t.lastCc = counterOf q)
    (hcc : res.cc = counterOf p) (hres : res.Describes p) : ¬ t.CcError p res := by
  rintro ⟨-, hflag, hstatus, -⟩
  have hok : t.ccStatus p res = .ok ∨ t.ccStatus p res = .duplicate := by
    rw [TrTrack.ccStatus, ccClassifyError, hlast, hcc]
    split
    · exact Or.inl rfl
    · rename_i hpayload
      rcases hfollows with hflagged | hsame | ⟨-, hnext⟩
      · rw [hres.hasDiscontinuity, discontinuity_of_flagged hflagged hlen] at hflag
        cases hflag
      · rw [if_pos hsame]
        exact Or.inr rfl
      · by_cases hsame : counterOf p = counterOf q
        · rw [if_pos hsame]
          exact Or.inr rfl
        · rw [if_neg hsame, if_pos hnext]
          exact Or.inl rfl
  rcases hok with hok | hok <;> rw [hok] at hstatus <;> exact absurd hstatus (by decide)

theorem onPacket_cc (w : Watch) {a : Alarms} (p : Nat → UInt8) (n : Nat)
    (hoff : (a.alerts .cc).status = .off) :
    ((w.onPacket a res p n).2.alerts .cc).status = .off ↔
      ¬ ((w.tracks res.pid).CcError p res ∧
        tsaAlertIsSuppressedByTree a.toAlerts .cc = false) := by
  obtain ⟨a1, hfront, hback⟩ := trOnTs_cc { w.tracks res.pid with lastSeenVstc := a.stcNs }
    (w.filterSection res p) a p res n
  have hsame : ∀ i, i ≠ .transport → a1.alerts i = a.alerts i := by
    intro i hi
    exact hfront.path.alerts (by simpa using hi)
  have htree : tsaAlertIsSuppressedByTree a1.toAlerts .cc =
      tsaAlertIsSuppressedByTree a.toAlerts .cc :=
    tree_congr (hsame _ (by decide)) (hsame _ (by decide)) .cc
  have hoff1 : (a1.alerts .cc).status = .off := by rw [hsame _ (by decide), hoff]
  have herrors : TrTrack.CcError { w.tracks res.pid with lastSeenVstc := a.stcNs } p res ↔
      (w.tracks res.pid).CcError p res := Iff.rfl
  rw [Watch.onPacket, hback.path.alerts (by decide), checkCc, ← herrors]
  split
  · rename_i herror
    rw [and_iff_right herror]
    show ((tsaAlertUpdate a1.toAlerts .cc true "CC" res.pid).alerts .cc).status = .off ↔ _
    rw [report_alerts, htree]
    cases tsaAlertIsSuppressedByTree a.toAlerts .cc with
    | true => exact iff_of_true hoff1 (by decide)
    | false =>
      rw [if_neg (by decide), update_self]
      exact iff_of_false (fun hfire => by cases hfire) (not_not_intro rfl)
  · rename_i herror
    exact iff_of_true hoff1 fun hboth => herror hboth.1

theorem commit_ccOff (P : Parts ρ) (n : Nat) (hoff : (h.alarms.alerts .cc).status = .off) :
    ((tsaCommitSnapshot P h n).alarms.alerts .cc).status = .off := by
  cases hstatus : ((tsaCommitSnapshot P h n).alarms.alerts .cc).status with
  | off => rfl
  | firing =>
    rcases (commit_firing_before P h n .cc).mp hstatus with hout | hfiring
    · exact absurd hout id
    · rw [hoff] at hfiring
      cases hfiring.1

/-! ## Runs -/

variable {r : MonitorHandle ρ × LastPackets} {m : Memory} {pkt : PacketPtr}

/-- `last_cc` after such a last packet. -/
def Agrees (cc : Nat) : Option ((Nat → UInt8) × Bool) → Prop
  | none => cc = 0x10
  | some (p, true) => cc = counterOf p
  | some (_, false) => True

/-- The alert is off, and the tracks agree with the last packets. -/
structure Tracked (r : MonitorHandle ρ × LastPackets) : Prop where
  off : (r.1.alarms.alerts .cc).status = .off
  agrees : ∀ pid, Agrees (r.1.rest.watch.tracks pid).lastCc (r.2 pid)

theorem Tracked.no_error (hr : Tracked r) (hlegal : Legal r (.packet m pkt n))
    (hheard : heard P r.1 (m.byte pkt) n = some res) (hres : res.Describes (m.byte pkt))
    (hexposed : ¬ Exposed r.2 (m.byte pkt)) :
    ¬ (r.1.rest.watch.tracks res.pid).CcError (m.byte pkt) res := by
  obtain ⟨hsync, hcc⟩ := heard_cc hheard
  rw [Exposed, not_or, not_or] at hexposed
  obtain ⟨hnull, hfiltered, hlen⟩ := hexposed
  have hagrees := hr.agrees (pidOf (m.byte pkt))
  rw [hres.pid]
  cases hlast : r.2 (pidOf (m.byte pkt)) with
  | none =>
    rw [hlast] at hagrees
    exact fun herror => herror.1 hagrees
  | some x =>
    obtain ⟨q, b⟩ := x
    rw [hlast] at hagrees
    cases b with
    | false => exact absurd ⟨_, hlast, rfl⟩ hfiltered
    | true =>
      have hfollows : Follows q (m.byte pkt) :=
        hlegal _ (by simp only [Input.tsPacket, if_pos hsync]; rfl) hnull _ hlast
      exact hfollows.no_error hlen hagrees hcc hres

/-- **One call.** -/
theorem ccOff_iff (P : Parts ρ) (r : MonitorHandle ρ × LastPackets) (i : Input)
    (hr : Tracked r) (hlegal : Legal r i) : CcOff P r i ↔ NoneExposed P r i := by
  cases i with
  | internalDrop dropCount => exact iff_of_true hr.off fun p hp => absurd hp (Option.not_mem_none _)
  | commitSnapshot n =>
    rw [CcOff, inputStep]
    exact iff_of_true (commit_ccOff P n hr.off) fun p hp => absurd hp (Option.not_mem_none _)
  | packet m pkt n =>
    cases hheard : heard P r.1 (m.byte pkt) n with
    | none =>
      refine iff_of_true ?_ fun p hp res hres => ?_
      · rw [CcOff, unheard_alerts hheard (by decide) (by decide)]
        exact hr.off
      · rw [heardOf, hheard] at hres
        cases hres
    | some res =>
      obtain ⟨a, hsync, hres, hbefore, -, hafter⟩ := heard_effect hheard
      have hcc : a.alerts .cc = r.1.alarms.alerts .cc := hbefore.alerts (by decide)
      have hpacket : Input.tsPacket (.packet m pkt n) = some (m.byte pkt) := if_pos hsync
      rw [CcOff, hafter.alerts (by decide), onPacket_cc _ _ _ (by rw [hcc, hr.off]),
        tree_congr (hbefore.alerts (by decide)) hcc]
      constructor
      · intro hfree p hp res' hres' _ hreported
        cases hpacket.symm.trans hp
        cases hheard.symm.trans hres'
        exact hfree hreported
      · intro hnone hreported
        by_cases hexposed : Exposed r.2 (m.byte pkt)
        · exact hnone _ hpacket _ hheard hexposed hreported
        · exact hr.no_error hlegal hheard hres hexposed hreported.1

theorem Tracked.step {i : Input} (hr : Tracked r) (hoff : CcOff P r i) :
    Tracked (lastStep P r i) := by
  refine ⟨hoff, fun pid => ?_⟩
  have hagrees := hr.agrees pid
  cases i with
  | internalDrop dropCount =>
    have hsame : ((tsaHandleInternalDrop r.1 dropCount).rest.watch.tracks pid).lastCc =
        (r.1.rest.watch.tracks pid).lastCc := by
      show (ite _ { r.1.rest.watch.tracks pid with ignoreNextCc := true } _ : TrTrack).lastCc = _
      split <;> rfl
    exact hsame ▸ hagrees
  | commitSnapshot n =>
    show Agrees ((tsaCommitSnapshot P r.1 n).rest.watch.tracks pid).lastCc (r.2 pid)
    rw [tsaCommitSnapshot_watch]
    exact hagrees
  | packet m pkt n =>
    by_cases hsync : m.byte pkt 0 = 0x47
    · simp only [lastStep, Input.tsPacket, if_pos hsync, heardOf]
      cases hheard : heard P r.1 (m.byte pkt) n with
      | none =>
        rw [unheard_watch hheard]
        by_cases hpid : pid = pidOf (m.byte pkt)
        · rw [hpid, update_self]
          trivial
        · rw [update_of_ne hpid]
          exact hagrees
      | some res =>
        obtain ⟨a, -, hres, -, hwatch, -⟩ := heard_effect hheard
        rw [hwatch]
        show Agrees (update r.1.rest.watch.tracks res.pid _ pid).lastCc _
        rw [hres.pid]
        by_cases hpid : pid = pidOf (m.byte pkt)
        · rw [hpid, update_self, update_self]
          exact (heard_cc hheard).2
        · rw [update_of_ne hpid, update_of_ne hpid]
          exact hagrees
    · have hnone : heard P r.1 (m.byte pkt) n = none :=
        Option.eq_none_iff_forall_ne_some.mpr fun res hheard => hsync (heard_cc hheard).1
      simp only [lastStep, Input.tsPacket, if_neg hsync]
      rw [unheard_watch hnone]
      exact hagrees

/-- **No false continuity alarms.**  Over every run whose counters are legal, `TSA_ALERT_CC` stays
    off exactly if no exposed packet is reported. -/
theorem cc_alarm_iff (P : Parts ρ) (config : AlertConfig) (rest : ρ) (is : List Input)
    (hlegal : Along Legal (lastStep P) (freshHandle config rest, fun _ => none) is) :
    Along (CcOff P) (lastStep P) (freshHandle config rest, fun _ => none) is ↔
      Along (NoneExposed P) (lastStep P) (freshHandle config rest, fun _ => none) is :=
  along_iff_while_of_along (I := Tracked) (fun _ _ hr _ hoff => hr.step hoff)
    (fun r i hr hlegal => ccOff_iff P r i hr hlegal) is _ ⟨rfl, fun _ => rfl⟩ hlegal

/-- The first bytes of a packet: PID, flags with the counter, and the adaptation field. -/
def counterPacket (pid flags length indicators : UInt8) : Nat → UInt8 := fun i =>
  [0x47, 0x01, pid, flags, length, indicators].getD i 0xFF

/-- Two payload packets and a duplicate, one without payload and the next with one, another PID in
    between; a jump with the indicator set; and a null packet. -/
def legalRun : List Input :=
  [counterPacket 0 0x10 0 0, counterPacket 0 0x11 0 0, counterPacket 0 0x11 0 0,
    counterPacket 1 0x17 0 0, counterPacket 0 0x21 183 0, counterPacket 0 0x12 0 0,
    counterPacket 1 0x18 0 0, counterPacket 0 0x39 1 0x80,
    fun i => [0x47, 0x1F, 0xFF, 0x13].getD i 0xFF].map (packetOf · 0)

theorem legalRun_ccOff : Along (CcOff Parts.idle) (lastStep Parts.idle)
    (freshHandle plainConfig (), fun _ => none) legalRun :=
  (cc_alarm_iff Parts.idle plainConfig () legalRun (by decide +kernel)).mpr (by decide +kernel)

/-- A null packet with this continuity counter. -/
def nullPacket (cc : UInt8) : Nat → UInt8 := fun i => [0x47, 0x1F, 0xFF, 0x10 ||| cc].getD i 0xFF

def nullRun : List Input := [packetOf (nullPacket 0) 0, packetOf (nullPacket 5) 0]

/-- **A false alarm**: the counters of two null packets. -/
theorem null_packets_fire :
    Along Legal (lastStep Parts.idle) (freshHandle plainConfig (), fun _ => none) nullRun ∧
      ¬ Along (CcOff Parts.idle) (lastStep Parts.idle) (freshHandle plainConfig (), fun _ => none)
        nullRun := by
  decide +kernel

end TsAnalyzer.Monitor
