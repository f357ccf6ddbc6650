/-
  The passage of a packet, seen from OUTSIDE the essence plugin.

  `TsAnalyzer.Pipeline.Spec` says what a packet does to the tracks.  This is its counterpart for
  everything else: whatever part `W` of the rest of the handle the essence plugin and its helpers do
  not touch, and the alarm fields.
-/
import TsAnalyzer.Alarm.Path
import TsAnalyzer.Pipeline.Spec

namespace TsAnalyzer.Pipeline

open Lib Alarm Essence Packet

variable {ρ ω : Type}

/-- `W` of the rest is as it was, and so is the count of sync losses; the alarm fields have gone
    along a path that raises alerts of `ids` only. -/
structure Calm (W : ρ → ω) (ids : List AlertId) (h h' : Handle ρ) : Prop where
  watch : W h'.rest = W h.rest
  alarms : AlarmPath ids h.alarms h'.alarms
  syncLoss : h'.syncLoss = h.syncLoss

/-- What the analyzer does around the plugins in front of the essence plugin is calm. -/
structure Engines.Tame (E : Engines ρ) (W : ρ → ω) (ids : List AlertId) : Prop where
  tstd : .tstd ∈ ids
  startEngine : ∀ r n, W (E.startEngine r n) = W r
  audioAudit : ∀ r pid bytes, W (E.audioAudit r pid bytes) = W r
  handleEsPayload : ∀ r a pid es bytes, W (E.handleEsPayload r a pid es bytes).rest = W r ∧
    AlarmPath ids a (E.handleEsPayload r a pid es bytes).alarms
  recordFrame : ∀ r pid type len, W (E.recordFrame r pid type len) = W r
  recordPts : ∀ r pid pts stc, W (E.recordPts r pid pts stc) = W r
  recordEntropy : ∀ r a pid bytes, W (E.recordEntropy r a pid bytes).1 = W r ∧
    AlarmPath ids a (E.recordEntropy r a pid bytes).2
  settle : ∀ r a, W (E.settle r a).1 = W r ∧ AlarmPath ids a (E.settle r a).2

namespace Calm

variable {W : ρ → ω} {ids : List AlertId} {h h1 h2 : Handle ρ}

theorem refl (h : Handle ρ) : Calm W ids h h := ⟨rfl, .refl _, rfl⟩

theorem trans (a : Calm W ids h h1) (b : Calm W ids h1 h2) : Calm W ids h h2 :=
  ⟨b.watch.trans a.watch, a.alarms.trans b.alarms, b.syncLoss.trans a.syncLoss⟩

theorem of_same (hrest : h1.rest = h.rest) (halarms : h1.alarms = h.alarms)
    (hloss : h1.syncLoss = h.syncLoss) : Calm W ids h h1 :=
  ⟨by rw [hrest], by rw [halarms]; exact .refl _, hloss⟩

theorem setTrack (a : Calm W ids h h1) (pid : Nat) (es : EsTrack) :
    Calm W ids h (h1.setTrack pid es) :=
  ⟨a.watch, a.alarms, a.syncLoss⟩

theorem pushEvent (h : Handle ρ) {type : EventType} (htype : type.Within ids) (pid val : Nat) :
    Calm W ids h (h.pushEvent type pid val) :=
  ⟨rfl, .single (.push type pid val htype), rfl⟩

theorem raiseAlert (h : Handle ρ) {id : AlertId} (hid : id ∈ ids) (name : String) (pid : Nat) :
    Calm W ids h (h.raiseAlert id name pid) :=
  ⟨rfl, .single (.update id true name pid hid), rfl⟩

end Calm

theorem within_of_none {type : EventType} (hnone : Alarms.eventAction type = none)
    (ids : List AlertId) : type.Within ids := by
  intro c id name haction
  rw [hnone] at haction
  cases haction

theorem within_tstd {ids : List AlertId} (hids : .tstd ∈ ids) :
    EventType.Within .tstdOverflow ids ∧ EventType.Within .tstdUnderflow ids := by
  constructor
  all_goals
    intro c id name haction
    cases haction
    exact hids

section Stages

variable {E : Engines ρ} {W : ρ → ω} {ids : List AlertId} (hE : E.Tame W ids)
include hE

/-! ## Intake -/

variable (h : Handle ρ) (m : Memory) (pid : Nat) (pkt : PacketPtr) (res : DecodeResult)
  (p : Nat → UInt8)

theorem arrive_calm (n : Nat) : Calm W ids h (arrive E h n) := by
  unfold arrive
  cases hstarted : h.engineStarted with
  | true =>
    simp only [if_true]
    split
    · exact .of_same rfl rfl rfl
    · exact .of_same rfl rfl rfl
  | false =>
    -- the first packet sets the clock and starts the engine
    simp only [Bool.false_eq_true, if_false]
    split
    · exact ⟨hE.startEngine h.rest n, .single (.tick n), rfl⟩
    · exact ⟨hE.startEngine h.rest n, .single (.tick n), rfl⟩

omit hE in
theorem syncGood_calm : Calm W ids h (syncGood h) := by
  cases hlock : (h.alarms.signalLock || decide (5 ≤ (h.consecutiveGoodSyncs + 1) % 2 ^ 32)) with
  | true =>
    have hmove : (syncGood h).alarms = { h.alarms with signalLock := true } := by
      rw [← hlock]
      rfl
    exact ⟨rfl, hmove ▸ .single .lock, rfl⟩
  | false =>
    have hold : h.alarms.signalLock = false := (Bool.or_eq_false_iff.mp hlock).1
    have hsame : (syncGood h).alarms = h.alarms := by
      show ({ h.alarms with signalLock := _ } : Alarms) = h.alarms
      rw [hlock, ← hold]
    exact .of_same rfl hsame rfl

omit hE in
theorem decode_calm : Calm W ids h (decode E h p).1 := by
  have hreport : Calm W ids h (reportPes E h p) := by
    unfold reportPes
    simp only
    split
    · have herror : EventType.Within .pesError ids := within_of_none rfl ids
      exact ⟨rfl, .single (.push .pesError (pidOf p) 0 herror), rfl⟩
    · exact .refl h
  exact hreport.trans (.of_same rfl rfl rfl)

omit hE in
theorem observe_calm (n : Nat) :
    ∃ h1, Calm W ids h h1 ∧ observe E h res p n =
      { h1 with rest := (E.onPacket h1 res p n).1, alarms := (E.onPacket h1 res p n).2 } := by
  refine ⟨_, ?_, rfl⟩
  split
  · have hscrambled : EventType.Within .scrambled ids := within_of_none rfl ids
    have hpush (h' : Handle ρ) : Calm W ids h' (h'.pushEvent .scrambled res.pid 0) :=
      .pushEvent h' hscrambled res.pid 0
    refine Calm.trans ?_ ((hpush { h with pidPacketCount := bump h.pidPacketCount res.pid }).trans
      (Calm.trans ?_ (hpush _)))
    · exact .of_same rfl rfl rfl
    · exact .of_same rfl rfl rfl
  · exact .of_same rfl rfl rfl

/-! ## The essence plugin -/

omit hE in
theorem stage_calm (es : EsTrack) (ops : List RefOp) : Calm W ids h (stage h m pid es ops).handle :=
  .of_same rfl rfl rfl

theorem finishPes_calm : Calm W ids h (finishPes E h m pid).handle := by
  unfold finishPes
  simp only
  split
  · exact .refl h
  · obtain ⟨hwatch, hpath⟩ := hE.handleEsPayload h.rest h.alarms pid (h.tracks pid)
      (pesBytes m (h.tracks pid).pes.refs)
    exact ⟨(hE.recordFrame _ _ _ _).trans hwatch, hpath, rfl⟩

theorem stampPes_calm : Calm W ids h (stampPes E h pid res) := by
  unfold stampPes
  simp only
  split
  · exact ⟨hE.recordPts _ _ _ _, .refl _, rfl⟩
  · exact .of_same rfl rfl rfl

theorem appendPacket_calm : Calm W ids h (appendPacket E h m pid pkt res).handle := by
  obtain ⟨o, ho⟩ : ∃ o, stage h m pid ((h.tracks pid).append pkt res)
      ((h.tracks pid).pes.append pkt res.afLen res.payloadLen).2 = o := ⟨_, rfl⟩
  have hstage : Calm W ids h o.handle := ho ▸ stage_calm h m pid _ _
  simp only [appendPacket, ho]
  split
  · refine hstage.trans ?_
    exact ⟨(hE.recordEntropy _ _ _ _).1, (hE.recordEntropy _ _ _ _).2, rfl⟩
  · exact hstage

theorem push_calm : Calm W ids h (tsaEsTrackPushPacket E h m pid pkt res).handle := by
  unfold tsaEsTrackPushPacket
  split
  · exact .refl h
  · split
    · exact (finishPes_calm hE h m pid).trans
        ((stampPes_calm hE _ pid res).trans (appendPacket_calm hE _ _ pid pkt res))
    · exact appendPacket_calm hE h m pid pkt res

omit hE in
theorem foldl_pushEvent_calm {type : EventType} (htype : type.Within ids) (pid : Nat)
    (vs : List Nat) (h : Handle ρ) :
    Calm W ids h (vs.foldl (fun h v => h.pushEvent type pid v) h) := by
  induction vs generalizing h with
  | nil => exact .refl h
  | cons v vs ih => exact (Calm.pushEvent h htype pid v).trans (ih _)

theorem reportFill_calm : Calm W ids h (reportFill E h pid) := by
  obtain ⟨hover, -⟩ := within_tstd hE.tstd
  have hpredict : EventType.Within .tstdPredictive ids := within_of_none rfl ids
  refine (foldl_pushEvent_calm hpredict pid
    ((h.tracks pid).leak (E.bitrates h.rest pid) h.alarms.stcNs).2 h).trans ?_
  unfold reportFill
  simp only
  split
  · exact (Calm.pushEvent _ hover pid _).trans (Calm.raiseAlert _ hE.tstd "TSTD" pid)
  · exact .refl _

theorem auditAudio_calm : Calm W ids h (auditAudio E h pid res p) := by
  unfold auditAudio
  simp only
  split
  · exact ⟨hE.audioAudit _ _ _, .refl _, rfl⟩
  · exact .refl h

theorem reportLate_calm (stc : Nat) : Calm W ids h (reportLate h pid stc) := by
  obtain ⟨-, hunder⟩ := within_tstd hE.tstd
  unfold reportLate
  simp only
  split
  · exact (Calm.pushEvent _ hunder pid _).trans (Calm.raiseAlert _ hE.tstd "TSTD" pid)
  · exact .refl h

theorem essenceFill_calm : Calm W ids h (essenceFill E h pid res p) := by
  have hfill := reportFill_calm hE h pid
  have haudit := auditAudio_calm hE (reportFill E h pid) pid res p
  have hlate := reportLate_calm hE (auditAudio E (reportFill E h pid) pid res p) pid h.alarms.stcNs
  unfold essenceFill
  exact (hfill.trans (haudit.trans hlate)).setTrack pid _

theorem essenceOnTs_calm : Calm W ids h (essenceOnTs E h m pkt res).handle := by
  have hfill := essenceFill_calm hE h res.pid res (m.byte pkt)
  unfold essenceOnTs
  simp only
  split
  · exact .refl h
  · split
    · exact stage_calm _ _ _ _ _
    · generalize essenceFill E h res.pid res (m.byte pkt) = h1 at hfill ⊢
      refine hfill.trans ?_
      split
      · exact (push_calm hE h1 m res.pid pkt res).setTrack res.pid _
      · exact (Calm.refl h1).setTrack res.pid _

theorem settle_calm : Calm W ids h (h.settle E) :=
  ⟨(hE.settle h.rest h.alarms).1, (hE.settle h.rest h.alarms).2, rfl⟩

end Stages

/-! ## One packet -/

/-- What a packet `p` that arrives at `n` makes of the handle. -/
inductive Passage (E : Engines ρ) (W : ρ → ω) (ids : List AlertId) (h : Handle ρ)
    (p : Nat → UInt8) (n : Nat) : Handle ρ → Prop
  /-- There is no sync byte. -/
  | noSync (hsync : p 0 ≠ 0x47) (hin : intake E h p n = .noSync (syncError (arrive E h n))) :
    Passage E W ids h p n (syncError (arrive E h n))
  /-- The PID filter drops the packet. -/
  | filtered (h' : Handle ρ) (res : DecodeResult) (hsync : p 0 = 0x47)
      (hin : intake E h p n = .filtered h' res) (hcalm : Calm W ids h h') : Passage E W ids h p n h'
  /-- The plugins work on the packet, the essence plugin last. -/
  | accepted (h1 h' h2 : Handle ρ) (res : DecodeResult) (hsync : p 0 = 0x47)
      (hin : intake E h p n = .accepted h' res) (hres : res.Describes p) (hbefore : Calm W ids h h1)
      (hplugins : h' =
        { h1 with rest := (E.onPacket h1 res p n).1, alarms := (E.onPacket h1 res p n).2 })
      (hafter : Calm W ids h' h2) : Passage E W ids h p n h2

theorem tsaProcessPacket_passage {E : Engines ρ} {W : ρ → ω} {ids : List AlertId}
    (hE : E.Tame W ids) (h : Handle ρ) (m : Memory) (pkt : PacketPtr) (n : Nat) :
    Passage E W ids h (m.byte pkt) n (tsaProcessPacket E h m pkt n).handle := by
  obtain ⟨p, hp⟩ : ∃ p, m.byte pkt = p := ⟨_, rfl⟩
  rw [tsaProcessPacket, hp]
  rcases Decidable.em (p 0 = 0x47) with hsync | hsync
  · obtain ⟨d, hd⟩ : ∃ d, decode E (tick E (syncGood (arrive E h n)) n) p = d := ⟨_, rfl⟩
    obtain ⟨h0, hh0⟩ : ∃ h0, countPacket d.1 = h0 := ⟨_, rfl⟩
    obtain ⟨res, hres⟩ : ∃ res, d.2 = res := ⟨_, rfl⟩
    have hdescribes : res.Describes p := by
      rw [← hres, ← hd]
      exact (decode_decoded E _ p).describes
    have hcalm : Calm W ids h h0 := by
      refine (arrive_calm hE h n).trans ((syncGood_calm _).trans ?_)
      have htick (h1 : Handle ρ) : Calm W ids h1 (tick E h1 n) := ⟨rfl, .single (.tick _), rfl⟩
      rw [← hh0, ← hd]
      exact (htick _).trans ((decode_calm _ p).trans (.of_same rfl rfl rfl))
    have hintake : intake E h p n =
        if E.pidDropped h0.rest res.pid then .filtered h0 res
        else .accepted (observe E h0 res p n) res := by
      rw [← hh0, ← hres, ← hd, intake, if_neg (not_not_intro hsync)]
    cases hdrop : E.pidDropped h0.rest res.pid with
    | true =>
      have hin : intake E h p n = .filtered h0 res := by rw [hintake, hdrop]; rfl
      rw [hin]
      exact .filtered h0 res hsync hin hcalm
    | false =>
      have hin : intake E h p n = .accepted (observe E h0 res p n) res := by
        rw [hintake, hdrop]; rfl
      rw [hin]
      obtain ⟨h1, hcalm1, hobserve⟩ : ∃ h1, Calm W ids h0 h1 ∧ observe E h0 res p n =
          { h1 with rest := (E.onPacket h1 res p n).1, alarms := (E.onPacket h1 res p n).2 } :=
        observe_calm h0 res p n
      exact .accepted h1 _ _ res hsync hin hdescribes (hcalm.trans hcalm1) hobserve
        ((essenceOnTs_calm hE _ m pkt res).trans (settle_calm hE _))
  · have hin : intake E h p n = .noSync (syncError (arrive E h n)) := by
      rw [intake, if_pos hsync]
    rw [hin]
    exact .noSync hsync hin

end TsAnalyzer.Pipeline
