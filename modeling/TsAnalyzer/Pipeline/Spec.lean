/-
  What one packet does to the tracks, to memory and to the accumulator's references: one lemma per
  part of `tsa_process_packet`, so that later proofs never unfold it.
-/
import TsAnalyzer.Pipeline.Process

namespace TsAnalyzer.Pipeline

open Lib Alarm Essence Packet Function

variable {ρ : Type}

/-! ## Intake -/

/-- Two handles that agree on the tracks and on the latched error. -/
def SameTracks (h h' : Handle ρ) : Prop :=
  h'.tracks = h.tracks ∧ h'.latchedCcError = h.latchedCcError

variable {h1 : Handle ρ}

theorem SameTracks.trans {h2 h3 : Handle ρ} (a : SameTracks h1 h2) (b : SameTracks h2 h3) :
    SameTracks h1 h3 := ⟨b.1.trans a.1, b.2.trans a.2⟩

variable (E : Engines ρ)

theorem arrive_sameTracks (h : Handle ρ) (n : Nat) : SameTracks h (arrive E h n) := by
  unfold arrive
  simp only
  constructor <;> split <;> split <;> rfl

theorem syncError_sameTracks (h : Handle ρ) : SameTracks h (syncError h) := by
  unfold syncError
  simp only
  split
  · exact ⟨rfl, rfl⟩
  · exact ⟨rfl, rfl⟩

theorem countPacket_sameTracks (h : Handle ρ) : SameTracks h (countPacket h) := ⟨rfl, rfl⟩

theorem observe_sameTracks (h : Handle ρ) (res : DecodeResult) (p : Nat → UInt8) (n : Nat) :
    SameTracks h (observe E h res p n) := by
  unfold observe
  simp only
  constructor <;> split <;> rfl

/-- The handle behind decoding: the PID's unroll state has moved on. -/
def Decoded (h : Handle ρ) (p : Nat → UInt8) (ph : PesHeader) (h' : Handle ρ)
    (res : DecodeResult) : Prop :=
  (res, (h'.tracks (pidOf p)).unroll) = tsaDecodePacket p ph (h.tracks (pidOf p)).unroll ∧
  (∃ u, h'.tracks = update h.tracks (pidOf p) { h.tracks (pidOf p) with unroll := u }) ∧
  h'.latchedCcError = h.latchedCcError

theorem reportPes_sameTracks (h : Handle ρ) (p : Nat → UInt8) : SameTracks h (reportPes E h p) := by
  unfold reportPes
  simp only
  split
  · exact ⟨rfl, rfl⟩
  · exact ⟨rfl, rfl⟩

theorem decode_decoded (h : Handle ρ) (p : Nat → UInt8) :
    Decoded h p (E.stack h.rest) (decode E h p).1 (decode E h p).2 := by
  obtain ⟨htracks, hlatched⟩ := reportPes_sameTracks E h p
  refine ⟨?_, ⟨_, by rw [← htracks]; rfl⟩, hlatched⟩
  rw [← htracks]
  show (_, (update (reportPes E h p).tracks _ _ (pidOf p)).unroll) = _
  rw [update_self]
  rfl

variable {h h' : Handle ρ} {p : Nat → UInt8} {ph : PesHeader} {res : DecodeResult}

theorem Decoded.of_same {h2 : Handle ρ} (a : SameTracks h h1) (d : Decoded h1 p ph h2 res)
    (b : SameTracks h2 h') : Decoded h p ph h' res := by
  obtain ⟨hres, ⟨u, hu⟩, hl⟩ := d
  refine ⟨by rw [b.1, hres, a.1], ⟨u, by rw [b.1, hu, a.1]⟩, by rw [b.2, hl, a.2]⟩

theorem Decoded.describes (d : Decoded h p ph h' res) : res.Describes p := by
  rw [show res = (tsaDecodePacket p ph (h.tracks (pidOf p)).unroll).1 from congrArg Prod.fst d.1]
  exact tsaDecodePacket_describes p ph _

theorem Decoded.hasPayload (d : Decoded h p ph h' res) :
    0 < res.payloadLen → res.hasPayload = true := by
  intro hpos
  rw [d.describes.hasPayload]
  exact decide_eq_true (d.describes.payloadLen ▸ hpos)

theorem Decoded.track (d : Decoded h p ph h' res) (pid : Nat) :
    ∃ u, h'.tracks pid = { h.tracks pid with unroll := u } := by
  obtain ⟨-, ⟨u, hu⟩, -⟩ := d
  rw [hu]
  by_cases hpid : pid = pidOf p
  · exact ⟨u, by rw [hpid, update_self]⟩
  · exact ⟨(h.tracks pid).unroll, by rw [update_of_ne hpid]⟩

theorem Decoded.track_of_ne (d : Decoded h p ph h' res) {pid : Nat} (hpid : pid ≠ pidOf p) :
    h'.tracks pid = h.tracks pid := by
  obtain ⟨-, ⟨u, hu⟩, -⟩ := d
  rw [hu, update_of_ne hpid]

/-- **What intake does**: a packet without sync byte changes no track; any other is decoded, and
    then dropped by the PID filter or handed on. -/
theorem intake_cases (h : Handle ρ) (p : Nat → UInt8) (n : Nat) :
    (p 0 ≠ 0x47 ∧ ∃ h', intake E h p n = .noSync h' ∧ SameTracks h h') ∨
    (p 0 = 0x47 ∧ ∃ ph h' res, Decoded h p ph h' res ∧
      (intake E h p n = .filtered h' res ∨ intake E h p n = .accepted h' res)) := by
  rcases Decidable.em (p 0 = 0x47) with hsync | hsync
  · right
    refine ⟨hsync, ?_⟩
    obtain ⟨h1, h1def⟩ : ∃ h1, h1 = tick E (syncGood (arrive E h n)) n := ⟨_, rfl⟩
    have hsame : SameTracks h h1 := h1def ▸ (arrive_sameTracks E h n).trans ⟨rfl, rfl⟩
    have hdec := decode_decoded E h1 p
    have hcount := countPacket_sameTracks (decode E h1 p).1
    have hintake : intake E h p n =
        if E.pidDropped (countPacket (decode E h1 p).1).rest (decode E h1 p).2.pid then
          .filtered (countPacket (decode E h1 p).1) (decode E h1 p).2
        else .accepted (observe E (countPacket (decode E h1 p).1) (decode E h1 p).2 p n)
          (decode E h1 p).2 := by
      rw [h1def, intake, if_neg (not_not_intro hsync)]
    rw [hintake]
    split
    · exact ⟨_, countPacket (decode E h1 p).1, _, hdec.of_same hsame hcount, .inl rfl⟩
    · refine ⟨_, observe E (countPacket (decode E h1 p).1) (decode E h1 p).2 p n, _,
        hdec.of_same hsame (hcount.trans (observe_sameTracks E _ _ p n)), .inr rfl⟩
  · left
    refine ⟨hsync, _, ?_, (arrive_sameTracks E h n).trans (syncError_sameTracks _)⟩
    rw [intake, if_pos hsync]

theorem pidDropped_of_filtered {E : Engines ρ} {n : Nat} (hin : intake E h p n = .filtered h' res) :
    E.pidDropped (arrive E h n).rest (pidOf p) = true := by
  obtain ⟨h1, h1def⟩ : ∃ h1, h1 = tick E (syncGood (arrive E h n)) n := ⟨_, rfl⟩
  have hrest : (decode E h1 p).1.rest = (arrive E h n).rest := by
    have hreport : (reportPes E h1 p).rest = h1.rest := by
      unfold reportPes
      simp only
      split <;> rfl
    rw [h1def] at hreport ⊢
    exact hreport
  have hpid : (decode E h1 p).2.pid = pidOf p := (decode_decoded E h1 p).describes.pid
  rw [intake] at hin
  split at hin
  · cases hin
  · simp only [← h1def] at hin
    split at hin
    · rename_i hdrop
      rw [hpid] at hdrop
      rw [← hrest]
      exact hdrop
    · cases hin

/-! ## The stages of the essence plugin -/

/-- What a stage does: a new track for the PID, reference-count operations that are all that happens
    to memory, and the bytes that were analysed. -/
structure Effect (h : Handle ρ) (m : Memory) (pid : Nat) (es : EsTrack) (ops : List RefOp)
    (analysed : Option (List UInt8)) (o : Outcome ρ) : Prop where
  tracks : o.handle.tracks = update h.tracks pid es
  latched : o.handle.latchedCcError = h.latchedCcError
  caller : o.mem.caller = ops.foldl (fun m op => op.onCaller m) m.caller
  syncBuffer : o.mem.syncBuffer = m.syncBuffer
  ops : o.ops = ops
  analysed : o.analysed = analysed

theorem stage_effect (h : Handle ρ) (m : Memory) (pid : Nat) (es : EsTrack) (ops : List RefOp) :
    Effect h m pid es ops none (stage h m pid es ops) :=
  ⟨rfl, rfl, rfl, rfl, rfl, rfl⟩

theorem idle_effect (h : Handle ρ) (m : Memory) (pid : Nat) :
    Effect h m pid (h.tracks pid) [] none ⟨h, m, [], none⟩ :=
  ⟨(update_eq_self pid h.tracks).symm, rfl, rfl, rfl, rfl, rfl⟩

/-- The reference drops of `tsa_es_track_clear_accumulator`. -/
def dropOps (refs : List PesRef) : List RefOp :=
  if refs.length ≤ pesMaxRefs then refs.map fun r => .unref r.pkt else []

theorem finishPes_effect (h : Handle ρ) (m : Memory) (pid : Nat) :
    ∃ rates, Effect h m pid ((h.tracks pid).finish rates) (dropOps (h.tracks pid).pes.refs)
      (if (h.tracks pid).pes.refs = [] then none else some (pesBytes m (h.tracks pid).pes.refs))
      (finishPes E h m pid) := by
  unfold finishPes
  simp only
  split
  · rename_i hnil
    refine ⟨none, ?_⟩
    rw [EsTrack.finish, if_pos hnil, hnil]
    exact idle_effect h m pid
  · exact ⟨_, rfl, rfl, rfl, rfl, rfl, rfl⟩

theorem stampPes_tracks (h : Handle ρ) (pid : Nat) (res : DecodeResult) :
    (stampPes E h pid res).tracks = update h.tracks pid ((h.tracks pid).stamp res) ∧
      (stampPes E h pid res).latchedCcError = h.latchedCcError := by
  unfold stampPes
  simp only
  constructor <;> split <;> rfl

theorem appendPacket_effect (h : Handle ρ) (m : Memory) (pid : Nat) (pkt : PacketPtr)
    (res : DecodeResult) :
    Effect h m pid ((h.tracks pid).append pkt res)
      ((h.tracks pid).pes.append pkt res.afLen res.payloadLen).2 none
      (appendPacket E h m pid pkt res) := by
  unfold appendPacket
  simp only
  split
  · exact ⟨rfl, rfl, rfl, rfl, rfl, rfl⟩
  · exact stage_effect ..

/-- Two stages on the track of one PID, the second from the handle `h1` the first one left. -/
theorem Effect.andThen {m : Memory} {pid : Nat} {es es' : EsTrack} {ops ops' : List RefOp}
    {analysed : Option (List UInt8)} {o o' : Outcome ρ} (a : Effect h m pid es ops analysed o)
    (ht : h1.tracks = update h.tracks pid es') (hl : h1.latchedCcError = h.latchedCcError)
    {es'' : EsTrack} (b : Effect h1 o.mem pid es'' ops' none o') :
    Effect h m pid es'' (ops ++ ops') analysed
      ⟨o'.handle, o'.mem, o.ops ++ o'.ops, o.analysed⟩ where
  tracks := by
    show o'.handle.tracks = _
    rw [b.tracks, ht, update_idem]
  latched := b.latched.trans hl
  caller := by
    show o'.mem.caller = _
    rw [b.caller, a.caller, List.foldl_append]
  syncBuffer := b.syncBuffer.trans a.syncBuffer
  ops := by rw [← a.ops, ← b.ops]
  analysed := a.analysed

/-! ## The plugin -/

/-- What a packet finds when it reaches the essence plugin: the packets its PID has accumulated,
    and whether a continuity error is latched. -/
structure Found where
  refs : List PesRef
  latched : Bool
  pkt : PacketPtr
  res : DecodeResult

namespace Found

/-- The packet resets its track. -/
def Resets (f : Found) : Prop := f.res.hasDiscontinuity ∨ f.latched
deriving Decidable

/-- The packet's reference-count operations. -/
def ops (f : Found) : List RefOp :=
  if f.res.pid = 0x1FFF then []
  else if f.Resets then dropOps f.refs
  else if f.res.payloadLen = 0 then []
  else if f.res.pusi then dropOps f.refs ++ [.ref f.pkt]
  else if f.refs.length < pesMaxRefs then [.ref f.pkt]
  else []

/-- The bytes handed to `tsa_handle_es_payload`, in memory `m`. -/
def analysed (f : Found) (m : Memory) : Option (List UInt8) :=
  if f.res.pid = 0x1FFF then none
  else if f.Resets then none
  else if f.res.payloadLen = 0 then none
  else if f.res.pusi ∧ f.refs ≠ [] then some (pesBytes m f.refs)
  else none

/-! The same, case by case. -/

theorem effects_of_null {f : Found} (hnull : f.res.pid = 0x1FFF) (m : Memory) :
    f.ops = [] ∧ f.analysed m = none := by
  rw [ops, analysed, if_pos hnull, if_pos hnull]
  exact ⟨rfl, rfl⟩

theorem effects_of_reset {f : Found} (hnull : ¬ f.res.pid = 0x1FFF) (hreset : f.Resets)
    (m : Memory) : f.ops = dropOps f.refs ∧ f.analysed m = none := by
  rw [ops, analysed, if_neg hnull, if_neg hnull, if_pos hreset, if_pos hreset]
  exact ⟨rfl, rfl⟩

theorem effects_of_no_payload {f : Found} (hnull : ¬ f.res.pid = 0x1FFF) (hreset : ¬ f.Resets)
    (hpay : f.res.payloadLen = 0) (m : Memory) : f.ops = [] ∧ f.analysed m = none := by
  rw [ops, analysed, if_neg hnull, if_neg hnull, if_neg hreset, if_neg hreset, if_pos hpay,
    if_pos hpay]
  exact ⟨rfl, rfl⟩

theorem effects_of_payload {f : Found} (hnull : ¬ f.res.pid = 0x1FFF) (hreset : ¬ f.Resets)
    (hpay : ¬ f.res.payloadLen = 0) (m : Memory) :
    f.ops = (if f.res.pusi then dropOps f.refs ++ [.ref f.pkt]
      else if f.refs.length < pesMaxRefs then [.ref f.pkt] else []) ∧
    f.analysed m = if f.res.pusi ∧ f.refs ≠ [] then some (pesBytes m f.refs) else none := by
  rw [ops, analysed, if_neg hnull, if_neg hnull, if_neg hreset, if_neg hreset, if_neg hpay,
    if_neg hpay]
  exact ⟨rfl, rfl⟩

end Found

def Handle.found (h : Handle ρ) (pkt : PacketPtr) (res : DecodeResult) : Found where
  refs := (h.tracks res.pid).pes.refs
  latched := h.latchedCcError ≠ 0
  pkt := pkt
  res := res

/-- `tsa_es_track_push_packet` on a packet with a payload. -/
theorem push_effect (h : Handle ρ) (m : Memory) (pid : Nat) (pkt : PacketPtr) (res : DecodeResult)
    (hpay : 0 < res.payloadLen) (hhas : res.hasPayload = true) :
    ∃ rates, Effect h m pid ((h.tracks pid).push rates pkt res)
      (if res.pusi then dropOps (h.tracks pid).pes.refs ++ [.ref pkt]
       else if (h.tracks pid).pes.refs.length < pesMaxRefs then [.ref pkt] else [])
      (if res.pusi ∧ (h.tracks pid).pes.refs ≠ [] then
        some (pesBytes m (h.tracks pid).pes.refs) else none)
      (tsaEsTrackPushPacket E h m pid pkt res) := by
  have hskip : ¬ (!res.pusi ∧ (!res.hasPayload ∨ res.payloadLen = 0)) := by
    rintro ⟨-, h' | h'⟩
    · rw [hhas] at h'; cases h'
    · omega
  rw [tsaEsTrackPushPacket, if_neg hskip]
  by_cases hpusi : res.pusi
  · obtain ⟨rates, ha⟩ := finishPes_effect E h m pid
    obtain ⟨hst, hsl⟩ := stampPes_tracks E (finishPes E h m pid).handle pid res
    refine ⟨rates, ?_⟩
    have hes : ((finishPes E h m pid).handle.tracks pid) = (h.tracks pid).finish rates := by
      rw [ha.tracks, update_self]
    rw [hes, ha.tracks, update_idem] at hst
    have hb := appendPacket_effect E (stampPes E (finishPes E h m pid).handle pid res)
      (finishPes E h m pid).mem pid pkt res
    rw [hst, update_self] at hb
    -- the accumulator is empty behind `finish`, so the packet always fits
    have hops : ((((h.tracks pid).finish rates).stamp res).pes.append pkt res.afLen
        res.payloadLen).2 = [.ref pkt] := by
      rw [PesAccumulator.append, EsTrack.stamp_refs, EsTrack.finish_refs, if_pos (by decide)]
    rw [hops] at hb
    have hcomp := ha.andThen hst (hsl.trans ha.latched) hb
    rw [EsTrack.push, if_neg hskip, if_pos hpusi, if_pos hpusi, if_pos hpusi]
    have han : (if res.pusi = true ∧ (h.tracks pid).pes.refs ≠ [] then
          some (pesBytes m (h.tracks pid).pes.refs) else none) =
        if (h.tracks pid).pes.refs = [] then none
        else some (pesBytes m (h.tracks pid).pes.refs) := by
      rw [hpusi]
      by_cases hnil : (h.tracks pid).pes.refs = [] <;> simp [hnil]
    rw [han]
    exact hcomp
  · refine ⟨none, ?_⟩
    have hb := appendPacket_effect E h m pid pkt res
    have hops : ((h.tracks pid).pes.append pkt res.afLen res.payloadLen).2 =
        if (h.tracks pid).pes.refs.length < pesMaxRefs then [.ref pkt] else [] := by
      rw [PesAccumulator.append]
      split <;> rfl
    rw [hops] at hb
    have hnone : ¬ (res.pusi = true ∧ (h.tracks pid).pes.refs ≠ []) := fun h' => hpusi h'.1
    rw [EsTrack.push, if_neg hskip, if_neg hpusi, if_neg hpusi, if_neg hpusi, if_neg hnone]
    exact hb

theorem alarm_sameTracks (h : Handle ρ) (type : EventType) (pid v : Nat) :
    SameTracks h ((h.pushEvent type pid v).raiseAlert .tstd "TSTD" pid) := ⟨rfl, rfl⟩

theorem foldl_pushEvent_sameTracks (vs : List Nat) (h : Handle ρ) (pid : Nat) :
    SameTracks h (vs.foldl (fun h v => h.pushEvent .tstdPredictive pid v) h) := by
  induction vs generalizing h with
  | nil => exact ⟨rfl, rfl⟩
  | cons v vs ih => exact SameTracks.trans ⟨rfl, rfl⟩ (ih (h.pushEvent .tstdPredictive pid v))

theorem reportFill_sameTracks (h : Handle ρ) (pid : Nat) : SameTracks h (reportFill E h pid) := by
  have hleak := foldl_pushEvent_sameTracks
    ((h.tracks pid).leak (E.bitrates h.rest pid) h.alarms.stcNs).2 h pid
  unfold reportFill
  simp only
  split
  · exact hleak.trans (alarm_sameTracks _ _ pid _)
  · exact hleak

theorem auditAudio_sameTracks (h : Handle ρ) (pid : Nat) (res : DecodeResult) (p : Nat → UInt8) :
    SameTracks h (auditAudio E h pid res p) := by
  unfold auditAudio
  simp only
  split
  · exact ⟨rfl, rfl⟩
  · exact ⟨rfl, rfl⟩

theorem reportLate_sameTracks (h : Handle ρ) (pid stc : Nat) :
    SameTracks h (reportLate h pid stc) := by
  unfold reportLate
  simp only
  split
  · exact alarm_sameTracks h _ pid _
  · exact ⟨rfl, rfl⟩

theorem essenceFill_tracks (h : Handle ρ) (pid : Nat) (res : DecodeResult) (p : Nat → UInt8) :
    (essenceFill E h pid res p).tracks = update h.tracks pid
        ((h.tracks pid).fill (E.bitrates h.rest pid) h.alarms.stcNs) ∧
      (essenceFill E h pid res p).latchedCcError = h.latchedCcError := by
  have hsame := ((reportFill_sameTracks E h pid).trans
    (auditAudio_sameTracks E _ pid res p)).trans (reportLate_sameTracks _ pid h.alarms.stcNs)
  constructor
  · rw [essenceFill, Handle.setTrack_tracks, hsame.1]
  · rw [essenceFill, Handle.setTrack_latched, hsame.2]

/-- **The plugin, in one statement.** -/
theorem essenceOnTs_effect (h : Handle ρ) (m : Memory) (pkt : PacketPtr) (res : DecodeResult)
    (hhas : 0 < res.payloadLen → res.hasPayload = true) :
    ∃ env : TrackEnv, env.stcNs = h.alarms.stcNs ∧ env.bitrates = E.bitrates h.rest res.pid ∧
      (env.latched = true ↔ h.latchedCcError ≠ 0) ∧
      Effect h m res.pid
        (if res.pid = 0x1FFF then h.tracks res.pid else (h.tracks res.pid).onTs env pkt res)
        (h.found pkt res).ops ((h.found pkt res).analysed m) (essenceOnTs E h m pkt res) := by
  -- `env` differs between the cases in the STC of the drain and the SPS rates only
  let env (drainStcNs : Nat) (rates : Option (Nat × Nat)) : TrackEnv :=
    ⟨h.alarms.stcNs, drainStcNs, E.bitrates h.rest res.pid, h.latchedCcError ≠ 0, rates⟩
  have henv (d : Nat) (r : Option (Nat × Nat)) :
      (env d r).latched = true ↔ h.latchedCcError ≠ 0 := by
    simp [env]
  by_cases hnull : res.pid = 0x1FFF
  · refine ⟨env 0 none, rfl, rfl, henv _ _, ?_⟩
    obtain ⟨hops, han⟩ := Found.effects_of_null (f := h.found pkt res) hnull m
    rw [hops, han, essenceOnTs, if_pos hnull, if_pos hnull]
    exact idle_effect h m res.pid
  rw [essenceOnTs, if_neg hnull]
  by_cases hreset : res.hasDiscontinuity ∨ h.latchedCcError ≠ 0
  · have hreset' : (h.found pkt res).Resets := by simpa [Found.Resets, Handle.found] using hreset
    refine ⟨env 0 none, rfl, rfl, henv _ _, ?_⟩
    obtain ⟨hops, han⟩ := Found.effects_of_reset hnull hreset' m
    rw [hops, han, if_pos hreset, if_neg hnull, EsTrack.onTs_of_reset (by rwa [henv])]
    exact stage_effect ..
  have hreset' : ¬ (h.found pkt res).Resets := by simpa [Found.Resets, Handle.found] using hreset
  rw [if_neg hreset]
  simp only [if_neg hnull]
  obtain ⟨hft, hfl⟩ := essenceFill_tracks E h res.pid res (m.byte pkt)
  obtain ⟨h1, hh1⟩ : ∃ h1, essenceFill E h res.pid res (m.byte pkt) = h1 := ⟨_, rfl⟩
  rw [hh1] at hft hfl ⊢
  have hes : h1.tracks res.pid =
      (h.tracks res.pid).fill (E.bitrates h.rest res.pid) h.alarms.stcNs := by
    rw [hft, update_self]
  by_cases hpay : res.payloadLen = 0
  · refine ⟨env h1.alarms.stcNs none, rfl, rfl, henv _ _, ?_⟩
    obtain ⟨hops, han⟩ := Found.effects_of_no_payload hnull hreset' hpay m
    have hpay' : ¬ 0 < res.payloadLen := by omega
    rw [hops, han, EsTrack.onTs_of_no_payload (by rwa [henv]) hpay, if_neg hpay', hes]
    refine ⟨?_, hfl, rfl, rfl, rfl, rfl⟩
    rw [Handle.setTrack_tracks, hft, update_idem]
  · have hpay' : 0 < res.payloadLen := by omega
    obtain ⟨rates, hp⟩ := push_effect E h1 m res.pid pkt res hpay' (hhas hpay')
    obtain ⟨o, ho⟩ : ∃ o, tsaEsTrackPushPacket E h1 m res.pid pkt res = o := ⟨_, rfl⟩
    refine ⟨env o.handle.alarms.stcNs rates, rfl, rfl, henv _ _, ?_⟩
    obtain ⟨hops, han⟩ := Found.effects_of_payload hnull hreset' hpay m
    rw [ho, hes] at hp
    rw [hops, han, EsTrack.onTs_of_payload (by rwa [henv]) hpay', if_pos hpay', ho]
    refine ⟨?_, hp.latched.trans hfl, hp.caller, hp.syncBuffer, hp.ops, hp.analysed⟩
    rw [Handle.setTrack_tracks, hp.tracks, update_self, update_idem, hft,
      update_idem]

/-! ## One packet -/

/-- **What `tsa_process_packet` does**: a packet without sync byte changes no track; a packet the
    PID filter drops is decoded; any other is decoded and goes through the essence plugin. -/
theorem tsaProcessPacket_cases (h : Handle ρ) (m : Memory) (pkt : PacketPtr) (n : Nat) :
    (∃ h', intake E h (m.byte pkt) n = .noSync h' ∧ m.byte pkt 0 ≠ 0x47 ∧ SameTracks h h' ∧
      tsaProcessPacket E h m pkt n = ⟨h', m, [], none⟩) ∨
    (∃ ph h' res, intake E h (m.byte pkt) n = .filtered h' res ∧ m.byte pkt 0 = 0x47 ∧
      Decoded h (m.byte pkt) ph h' res ∧ tsaProcessPacket E h m pkt n = ⟨h', m, [], none⟩) ∨
    (∃ ph h' res env, intake E h (m.byte pkt) n = .accepted h' res ∧ m.byte pkt 0 = 0x47 ∧
      Decoded h (m.byte pkt) ph h' res ∧ env.stcNs = h'.alarms.stcNs ∧
      env.bitrates = E.bitrates h'.rest res.pid ∧ (env.latched = true ↔ h'.latchedCcError ≠ 0) ∧
      Effect h' m res.pid
        (if res.pid = 0x1FFF then h'.tracks res.pid else (h'.tracks res.pid).onTs env pkt res)
        (h'.found pkt res).ops ((h'.found pkt res).analysed m) (tsaProcessPacket E h m pkt n)) := by
  rcases intake_cases E h (m.byte pkt) n with
    ⟨hsync, h', hin, hsame⟩ | ⟨hsync, ph, h', res, hdec, hin | hin⟩
  · exact .inl ⟨h', hin, hsync, hsame, by simp only [tsaProcessPacket, hin]⟩
  · exact .inr (.inl ⟨ph, h', res, hin, hsync, hdec, by simp only [tsaProcessPacket, hin]⟩)
  · obtain ⟨env, hstc, hrates, hlatched, heff⟩ := essenceOnTs_effect E h' m pkt res hdec.hasPayload
    refine .inr (.inr ⟨ph, h', res, env, hin, hsync, hdec, hstc, hrates, hlatched, ?_⟩)
    -- a pending snapshot touches neither tracks nor memory
    simp only [tsaProcessPacket, hin]
    exact ⟨heff.tracks, heff.latched, heff.caller, heff.syncBuffer, heff.ops, heff.analysed⟩

end TsAnalyzer.Pipeline
