/-
  PES payloads when the caller reuses ONE packet buffer.

  `worker_thread` and the `sync_buffer` path read every packet into the same 188 bytes.  The
  accumulator keeps the pointer, so all packets of a PES under construction are the SAME pointer,
  and what is read back at the next unit start is the unit start itself.
-/
import TsAnalyzer.Pipeline.Spec

namespace TsAnalyzer.Pipeline

open Lib Alarm Essence Packet List Function

variable {ρ : Type}

/-! ## Packets in the buffer -/

/-- Memory once the 188 bytes of `p` have been read into the buffer behind `pkt`. -/
def putPacket (m : Memory) (pkt : PacketPtr) (p : Nat → UInt8) : Memory :=
  match pkt with
  | .caller addr =>
    { m with caller := fun i => if addr ≤ i ∧ i < addr + 188 then p (i - addr) else m.caller i }
  | .syncBuffer => { m with syncBuffer := fun i => if i < 188 then p i else m.syncBuffer i }

theorem putPacket_byte (m : Memory) (pkt : PacketPtr) (p : Nat → UInt8) {i : Nat} (hi : i < 188) :
    (putPacket m pkt p).byte pkt i = p i := by
  cases pkt with
  | caller addr =>
    show (if addr ≤ addr + i ∧ addr + i < addr + 188 then p (addr + i - addr) else _) = p i
    rw [if_pos (by omega), Nat.add_sub_cancel_left]
  | syncBuffer =>
    show (if i < 188 then p i else _) = p i
    rw [if_pos hi]

variable {pkt : PacketPtr}

theorem describes_putPacket {m : Memory} {p : Nat → UInt8} {res : DecodeResult}
    (hd : res.Describes ((putPacket m pkt p).byte pkt)) : res.Describes p := by
  have hb : ∀ i, i < 188 → (putPacket m pkt p).byte pkt i = p i := fun i => putPacket_byte m pkt p
  have haf : afLenOf ((putPacket m pkt p).byte pkt) = afLenOf p := by
    simp only [afLenOf, hb 3 (by decide), hb 4 (by decide)]
  have hlen : payloadLenOf ((putPacket m pkt p).byte pkt) = payloadLenOf p := by
    simp only [payloadLenOf, haf, hb 3 (by decide)]
  constructor
  · rw [hd.pid]; simp only [pidOf, hb 1 (by decide), hb 2 (by decide)]
  · rw [hd.pusi]; simp only [pusiOf, hb 1 (by decide)]
  · rw [hd.afLen, haf]
  · rw [hd.payloadLen, hlen]
  · rw [hd.hasPayload, hlen]
  · rw [hd.hasDiscontinuity]; simp only [discontinuityOf, haf, hb 5 (by decide)]

def payloadOf (p : Nat → UInt8) : List UInt8 :=
  (range (payloadLenOf p)).map fun k => p (4 + afLenOf p + k)

/-- What the accumulator keeps of a packet in the buffer behind `pkt`. -/
def refOf (pkt : PacketPtr) (p : Nat → UInt8) : PesRef := ⟨pkt, 4 + afLenOf p, payloadLenOf p⟩

/-- What it keeps of several: those without payload leave no trace. -/
def refsOf (pkt : PacketPtr) (ps : List (Nat → UInt8)) : List PesRef :=
  (ps.filter fun p => 0 < payloadLenOf p).map (refOf pkt)

theorem refsOf_snoc (pkt : PacketPtr) (ps : List (Nat → UInt8)) (p : Nat → UInt8) :
    refsOf pkt (ps ++ [p]) =
      if payloadLenOf p = 0 then refsOf pkt ps else refsOf pkt ps ++ [refOf pkt p] := by
  rw [refsOf, filter_append, map_append]
  rcases Nat.eq_zero_or_pos (payloadLenOf p) with h | h
  · simp [h, refsOf]
  · simp [h, Nat.ne_of_gt h, refsOf]

/-- What a packet `q` kept in the buffer reads back as once `p` is in it. -/
def rereadAs (p q : Nat → UInt8) : List UInt8 :=
  (range (payloadLenOf q)).map fun k => p (4 + afLenOf q + k)

theorem pesBytes_refsOf (m : Memory) (pkt : PacketPtr) (p : Nat → UInt8) (qs : List (Nat → UInt8)) :
    pesBytes (putPacket m pkt p) (refsOf pkt qs) = qs.flatMap (rereadAs p) := by
  induction qs with
  | nil => rfl
  | cons q qs ih =>
    have hbytes : (refOf pkt q).bytes (putPacket m pkt p) = rereadAs p q := by
      apply map_congr_left
      intro k hk
      have hle := payloadLenOf_le q
      have hk := mem_range.mp hk
      exact putPacket_byte m pkt p (by show 4 + afLenOf q + k < 188; simp only [refOf] at hk; omega)
    rcases Nat.eq_zero_or_pos (payloadLenOf q) with h | h
    · have hnone : rereadAs p q = [] := by simp [rereadAs, h]
      have hrefs : refsOf pkt (q :: qs) = refsOf pkt qs := by simp [refsOf, h]
      rw [hrefs, ih, flatMap_cons, hnone, nil_append]
    · have hrefs : refsOf pkt (q :: qs) = refOf pkt q :: refsOf pkt qs := by simp [refsOf, h]
      rw [hrefs, pesBytes, flatMap_cons, hbytes, flatMap_cons, ← ih]
      rfl

/-! ## Runs -/

/-- Handle and memory between two packets, with the packets of each PID since its unit start. -/
structure Reused (ρ : Type) where
  handle : Handle ρ
  mem : Memory
  since : Nat → List (Nat → UInt8)

structure Arrival where
  packet : Nat → UInt8
  n : Nat

/-- A packet with sync byte starts a unit of its PID or continues it. -/
def sinceStep (since : Nat → List (Nat → UInt8)) (p : Nat → UInt8) : Nat → List (Nat → UInt8) :=
  if p 0 = 0x47 then
    update since (pidOf p) (if pusiOf p then [p] else since (pidOf p) ++ [p])
  else since

/-- `tsa_process_packet` on the buffer, with the packet read into it. -/
def Reused.outcome (E : Engines ρ) (pkt : PacketPtr) (s : Reused ρ) (a : Arrival) : Outcome ρ :=
  tsaProcessPacket E s.handle (putPacket s.mem pkt a.packet) pkt a.n

def Reused.step (E : Engines ρ) (pkt : PacketPtr) (s : Reused ρ) (a : Arrival) : Reused ρ :=
  let o := s.outcome E pkt a
  ⟨o.handle, o.mem, sinceStep s.since a.packet⟩

/-- A unit start that can carry PES data. -/
def UnitStart (p : Nat → UInt8) : Prop := p 0 = 0x47 ∧ pusiOf p ∧ pidOf p ≠ 0x1FFF

/-- What is analysed at a unit start is what came since the last one. -/
def Correct (E : Engines ρ) (pkt : PacketPtr) (s : Reused ρ) (a : Arrival) : Prop :=
  UnitStart a.packet →
    (s.outcome E pkt a).analysed.getD [] = (s.since (pidOf a.packet)).flatMap payloadOf

/-- Nothing of the packet is dropped by design: the PID filter lets it through, it signals no
    discontinuity, a unit start has a payload, and any other packet finds room. -/
def Plain (E : Engines ρ) (s : Reused ρ) (a : Arrival) : Prop :=
  a.packet 0 = 0x47 → pidOf a.packet ≠ 0x1FFF →
    E.pidDropped (arrive E s.handle a.n).rest (pidOf a.packet) = false ∧
    discontinuityOf a.packet = false ∧
    if pusiOf a.packet then 0 < payloadLenOf a.packet
    else (s.handle.tracks (pidOf a.packet)).pes.refs.length < pesMaxRefs

/-- A unit start carries, at the place of each payload since the last one, that payload. -/
def Intact (s : Reused ρ) (a : Arrival) : Prop :=
  UnitStart a.packet → ∀ q ∈ s.since (pidOf a.packet), ∀ k < payloadLenOf q,
    a.packet (4 + afLenOf q + k) = q (4 + afLenOf q + k)

/-- Every accumulator lists the packets since the last unit start. -/
def Tracked (pkt : PacketPtr) (s : Reused ρ) : Prop :=
  s.handle.latchedCcError = 0 ∧
    ∀ pid, pid ≠ 0x1FFF → (s.handle.tracks pid).pes.refs = refsOf pkt (s.since pid)

/-! ## One packet -/

variable {E : Engines ρ} {s : Reused ρ} {a : Arrival}

theorem outcome_accepted (pkt : PacketPtr) (hlatch : s.handle.latchedCcError = 0)
    (hplain : Plain E s a) (hsync : a.packet 0 = 0x47) (hnull : pidOf a.packet ≠ 0x1FFF) :
    ∃ h' res env, res.Describes a.packet ∧ h'.latchedCcError = 0 ∧
      (∀ pid, (h'.tracks pid).pes = (s.handle.tracks pid).pes) ∧
      ¬ (res.hasDiscontinuity ∨ env.latched) ∧ (0 < res.payloadLen → res.hasPayload = true) ∧
      Effect h' (putPacket s.mem pkt a.packet) (pidOf a.packet)
        ((h'.tracks (pidOf a.packet)).onTs env pkt res) (h'.found pkt res).ops
        ((h'.found pkt res).analysed (putPacket s.mem pkt a.packet)) (s.outcome E pkt a) := by
  obtain ⟨hdrop, hdisc, -⟩ := hplain hsync hnull
  have hbyte := putPacket_byte s.mem pkt a.packet (i := 0) (by decide)
  rcases tsaProcessPacket_cases E s.handle (putPacket s.mem pkt a.packet) pkt a.n with
    ⟨h', -, hnosync, -, -⟩ | ⟨ph, h', res, hin, -, hdec, -⟩ |
    ⟨ph, h', res, env, hin, -, hdec, -, -, hlatched, heff⟩
  · exact absurd (hbyte.trans hsync) hnosync
  · have hpid := (describes_putPacket hdec.describes).pid
    have hdropped := pidDropped_of_filtered hin
    rw [← hdec.describes.pid, hpid, hdrop] at hdropped
    cases hdropped
  · have hd := describes_putPacket hdec.describes
    have hl : h'.latchedCcError = 0 := hdec.2.2.trans hlatch
    refine ⟨h', res, env, hd, hl, fun pid => ?_, ?_, hdec.hasPayload, ?_⟩
    · obtain ⟨u, hu⟩ := hdec.track pid
      rw [hu]
    · rintro (h | h)
      · rw [hd.hasDiscontinuity, hdisc] at h; cases h
      · exact hlatched.mp h hl
    · rw [hd.pid, if_neg hnull] at heff
      exact heff

theorem outcome_dropped (E : Engines ρ) (pkt : PacketPtr) (hlatch : s.handle.latchedCcError = 0)
    (hdrop : a.packet 0 ≠ 0x47 ∨ pidOf a.packet = 0x1FFF) :
    (s.outcome E pkt a).handle.latchedCcError = 0 ∧
      ∀ pid, ((s.outcome E pkt a).handle.tracks pid).pes = (s.handle.tracks pid).pes := by
  have hbyte := putPacket_byte s.mem pkt a.packet (i := 0) (by decide)
  rw [Reused.outcome]
  rcases tsaProcessPacket_cases E s.handle (putPacket s.mem pkt a.packet) pkt a.n with
    ⟨h', -, -, hsame, ho⟩ | ⟨ph, h', res, -, -, hdec, ho⟩ |
    ⟨ph, h', res, env, -, hsync, hdec, -, -, -, heff⟩
  · rw [ho]
    exact ⟨hsame.2.trans hlatch, fun pid => by rw [hsame.1]⟩
  · rw [ho]
    refine ⟨hdec.2.2.trans hlatch, fun pid => ?_⟩
    obtain ⟨u, hu⟩ := hdec.track pid
    rw [hu]
  · have hnull : res.pid = 0x1FFF := by
      rcases hdrop with h | h
      · exact absurd (hbyte.symm.trans hsync) h
      · rw [(describes_putPacket hdec.describes).pid, h]
    rw [if_pos hnull] at heff
    refine ⟨heff.latched.trans (hdec.2.2.trans hlatch), fun pid => ?_⟩
    obtain ⟨u, hu⟩ := hdec.track pid
    rw [heff.tracks, update_eq_self, hu]

/-- **The crux**: a packet that nothing drops keeps the accumulators in step with the inputs. -/
theorem step_tracked
    (hs : Tracked pkt s) (hplain : Plain E s a) : Tracked pkt (s.step E pkt a) := by
  obtain ⟨hlatch, hrefs⟩ := hs
  by_cases hdrop : a.packet 0 ≠ 0x47 ∨ pidOf a.packet = 0x1FFF
  · obtain ⟨hl, hpes⟩ := outcome_dropped E pkt hlatch hdrop
    refine ⟨hl, fun pid hpid => ?_⟩
    show ((s.outcome E pkt a).handle.tracks pid).pes.refs = refsOf pkt (sinceStep _ _ pid)
    rw [hpes, hrefs pid hpid, sinceStep]
    split
    · rename_i hsync
      have hne : pid ≠ pidOf a.packet := by
        rcases hdrop with h | h
        · exact absurd hsync h
        · exact fun h' => hpid (h'.trans h)
      rw [update_of_ne hne]
    · rfl
  · have hsync : a.packet 0 = 0x47 := Decidable.not_not.mp fun h => hdrop (.inl h)
    have hnull : pidOf a.packet ≠ 0x1FFF := fun h => hdrop (.inr h)
    obtain ⟨h', res, env, hd, hl, hpes, hreset, hhas, heff⟩ :=
      outcome_accepted pkt hlatch hplain hsync hnull
    refine ⟨heff.latched.trans hl, fun pid hpid => ?_⟩
    show ((s.outcome E pkt a).handle.tracks pid).pes.refs = refsOf pkt (sinceStep _ _ pid)
    rw [heff.tracks, sinceStep, if_pos hsync]
    by_cases hself : pid = pidOf a.packet
    · subst hself
      have hroom := (hplain hsync hnull).2.2
      have hlt := payloadLenOf_le a.packet
      rw [update_self, update_self, EsTrack.onTs_refs hreset hhas, hpes,
        hrefs _ hpid, hd.payloadLen, hd.pusi, hd.afLen, Nat.mod_eq_of_lt (by omega)]
      by_cases hpusi : pusiOf a.packet
      · rw [if_pos hpusi] at hroom
        rw [if_neg (Nat.ne_of_gt hroom), if_pos hpusi, if_pos hpusi]
        simp [refsOf, refOf, hroom]
      · rw [if_neg hpusi, hrefs _ hpid] at hroom
        rw [if_neg hpusi, if_neg hpusi, if_pos hroom, refsOf_snoc]
        rfl
    · rw [update_of_ne hself, update_of_ne hself, hpes, hrefs pid hpid]

/-! ## Exactness -/

theorem rereadAs_eq_iff (p q : Nat → UInt8) :
    rereadAs p q = payloadOf q ↔
      ∀ k < payloadLenOf q, p (4 + afLenOf q + k) = q (4 + afLenOf q + k) := by
  rw [rereadAs, payloadOf, map_inj_left]
  simp only [mem_range]

/-- What a unit start has analysed: every packet since the last one, read back from the buffer as
    it now stands. -/
theorem outcome_analysed (hs : Tracked pkt s) (hplain : Plain E s a) (hstart : UnitStart a.packet) :
    (s.outcome E pkt a).analysed.getD [] =
      (s.since (pidOf a.packet)).flatMap (rereadAs a.packet) := by
  obtain ⟨hsync, hpusi, hnull⟩ := hstart
  obtain ⟨h', res, env, hd, hl, hpes, hreset, -, heff⟩ :=
    outcome_accepted pkt hs.1 hplain hsync hnull
  have hpay := (hplain hsync hnull).2.2
  rw [if_pos hpusi] at hpay
  have hreset' : ¬ (h'.found pkt res).Resets := by
    simp only [Found.Resets, Handle.found, hl, not_true, ne_eq, decide_false]
    exact fun h => hreset (h.imp_right fun h => by cases h)
  have hnull' : ¬ (h'.found pkt res).res.pid = 0x1FFF := by
    rw [show (h'.found pkt res).res.pid = pidOf a.packet from hd.pid]
    exact hnull
  have hpay' : ¬ (h'.found pkt res).res.payloadLen = 0 := by
    rw [show (h'.found pkt res).res.payloadLen = payloadLenOf a.packet from hd.payloadLen]
    omega
  have hrefs : (h'.found pkt res).refs = refsOf pkt (s.since (pidOf a.packet)) := by
    show (h'.tracks res.pid).pes.refs = _
    rw [hd.pid, hpes, hs.2 _ hnull]
  have hpusi' : (h'.found pkt res).res.pusi = true := hd.pusi.trans hpusi
  rw [heff.analysed, (Found.effects_of_payload hnull' hreset' hpay' _).2,
    ← pesBytes_refsOf s.mem pkt,
    ← hrefs]
  by_cases hnil : (h'.found pkt res).refs = []
  · rw [if_neg (fun h => h.2 hnil), hnil]
    rfl
  · rw [if_pos ⟨hpusi', hnil⟩]
    rfl

theorem correct_iff_intact
    (hs : Tracked pkt s) (hplain : Plain E s a) : Correct E pkt s a ↔ Intact s a := by
  refine forall_congr' fun hstart => ?_
  rw [outcome_analysed hs hplain hstart,
    flatMap_eq_flatMap_iff (fun q _ => by simp [rereadAs, payloadOf])]
  exact forall₂_congr fun q _ => rereadAs_eq_iff a.packet q

/-- The start of a run: a fresh handle, any memory. -/
def Reused.start (config : AlertConfig) (rest : ρ) (m : Memory) : Reused ρ :=
  ⟨Handle.fresh config rest, m, fun _ => []⟩

/-- **PES analysis out of one buffer**, for every sequence of packets from a fresh handle of which
    nothing is dropped by design: every unit start has exactly the payloads since the last one
    analysed, if and only if every unit start carries those payloads in their places. -/
theorem reusedBuffer_iff (E : Engines ρ) (config : AlertConfig) (rest : ρ) (m : Memory)
    (pkt : PacketPtr) (as : List Arrival)
    (hplain : Along (Plain E) (Reused.step E pkt) (.start config rest m) as) :
    Along (Correct E pkt) (Reused.step E pkt) (.start config rest m) as ↔
      Along Intact (Reused.step E pkt) (.start config rest m) as :=
  along_iff_of_along (fun _ _ => step_tracked) (fun _ _ => correct_iff_intact) as _
    ⟨rfl, fun _ _ => rfl⟩ hplain

/-- A unit start of PID 0x100 whose payload starts with `b`. -/
def unitStart (b : UInt8) : Arrival := ⟨fun i => [0x47, 0x41, 0x00, 0x10, b].getD i 0, 0⟩

/-- Two unit starts with the same payload: the one stands for the other. -/
theorem equal_units_correct :
    Along (Plain Engines.idle) (Reused.step Engines.idle (.caller 0))
      (.start ⟨"", 0, 0, false, false⟩ () ⟨fun _ => 0, fun _ => 0⟩) [unitStart 1, unitStart 1] ∧
    Along (Correct Engines.idle (.caller 0)) (Reused.step Engines.idle (.caller 0))
      (.start ⟨"", 0, 0, false, false⟩ () ⟨fun _ => 0, fun _ => 0⟩) [unitStart 1, unitStart 1] := by
  have hplain : Along (Plain Engines.idle) (Reused.step Engines.idle (.caller 0))
      (.start ⟨"", 0, 0, false, false⟩ () ⟨fun _ => 0, fun _ => 0⟩) [unitStart 1, unitStart 1] :=
    ⟨fun _ _ => ⟨rfl, by decide, by decide⟩, fun _ _ => ⟨rfl, by decide, by decide⟩, trivial⟩
  refine ⟨hplain, (reusedBuffer_iff Engines.idle _ () _ (.caller 0) _ hplain).mpr ?_⟩
  refine ⟨fun _ _ h => absurd h not_mem_nil, fun _ q hq => ?_, trivial⟩
  rw [show q = _ from mem_singleton.mp hq]
  exact fun _ _ => rfl

/-- **Two unit starts are enough**: where the payloads differ in their first byte, the second unit
    start is analysed in place of the first. -/
theorem reusedBuffer_wrong :
    ¬ Along (Correct Engines.idle (.caller 0)) (Reused.step Engines.idle (.caller 0))
      (.start ⟨"", 0, 0, false, false⟩ () ⟨fun _ => 0, fun _ => 0⟩) [unitStart 1, unitStart 2] := by
  rintro ⟨-, hsecond, -⟩
  have hbytes := congrArg head? (hsecond ⟨rfl, by decide, by decide⟩)
  exact absurd (show some (2 : UInt8) = some 1 from hbytes) (by decide)

end TsAnalyzer.Pipeline
