/-
  The pacer (`src/tsp.c`): `tsp_enqueue` fills a ring of 16384 packets, each with the time at which
  `tx_loop` may send it, a batch at a time.

  1. **Program** — the two threads, one packet at a time.  A packet is admitted if 256 slots are
     free; the null packets in front of a PCR stop where 20 are left.
  2. **Correctness** — the slots from `tail` to `head` hold what was pushed and not sent (`Sound`),
     so nothing is lost or reordered (`pacer_fifo`).
-/
import TsAnalyzer.Clock.PcrTrack
import TsAnalyzer.Lib.Fifo

namespace TsAnalyzer.Pacer

open Lib Packet Clock List Function

/-! ## The schedule -/

abbrev TsPacket := Nat → UInt8

def ringBufferSize : Nat := 16384

/-- `tsp_mode_t`. -/
inductive Mode where
  | basic | pcr | cbr
  deriving DecidableEq

/-- `tsp_config_t`. -/
structure Config where
  bitrate : Nat
  tsPerUdp : Nat
  pcrPid : Nat
  mode : Mode

structure Schedule where
  basePcrTicks : Nat
  baseWallNs : Nat
  lastScheduledNs : Nat
  lastPcrValTx : Nat
  lastPcrWallNs : Nat
  pktsSincePcr : Nat
  estimatedBitrate : Nat
  lockedPcrPid : Nat

def pacerSyncWallclock (s : Schedule) (pcr nowNs : Nat) : Schedule :=
  let base := (max s.lastScheduledNs nowNs + 10000000) % 2 ^ 64
  { s with
    basePcrTicks := pcr, baseWallNs := base, lastScheduledNs := base, lastPcrWallNs := base }

/-- The first PCR seen may lock the clock to its PID. -/
def Schedule.heard (cfg : Config) (s : Schedule) (pkt : TsPacket) : Schedule :=
  if cfg.mode = .pcr ∧ tspHasPcr pkt ∧ cfg.pcrPid = 0 ∧ s.lockedPcrPid = 0x1FFF then
    { s with lockedPcrPid := pidOf pkt } else s

/-- The packet has the PCR that the clock follows. -/
def Schedule.follows (cfg : Config) (s : Schedule) (pkt : TsPacket) : Bool :=
  cfg.mode = .pcr ∧ tspHasPcr pkt ∧
    pidOf pkt = if cfg.pcrPid ≠ 0 then cfg.pcrPid else s.lockedPcrPid

def Schedule.targetWallNs (s : Schedule) (pcr : Nat) : Nat :=
  (s.baseWallNs + tsaPcrToNs (sub64 pcr s.basePcrTicks)) % 2 ^ 64

/-- The configured bit rate, or else this one. -/
def Config.rate (cfg : Config) (br : Nat) : Nat := if cfg.bitrate ≠ 0 then cfg.bitrate else br

def nsPerPkt (br : Nat) : Nat := tsPacketBits * 1000000000 / br

def Schedule.estimate (s : Schedule) (target : Nat) : Nat :=
  if s.lastPcrWallNs < target then
    let br := (s.pktsSincePcr + 1) * tsPacketBits * 1000000000 % 2 ^ 64 / (target - s.lastPcrWallNs)
    if s.estimatedBitrate ≠ 0 then (s.estimatedBitrate * 15 + br) % 2 ^ 64 / 16 else br
  else s.estimatedBitrate

/-- A packet that goes by its distance from the last one. -/
def Schedule.advance (cfg : Config) (s : Schedule) (nowNs : Nat) : Schedule :=
  let br := cfg.rate (if s.estimatedBitrate ≠ 0 then s.estimatedBitrate else 10000000)
  let last := if s.lastScheduledNs = 0 then nowNs else s.lastScheduledNs
  let next := (last + nsPerPkt br) % 2 ^ 64
  { s with
    lastScheduledNs := if (next + 500000000) % 2 ^ 64 < nowNs then nowNs else next
    pktsSincePcr := (s.pktsSincePcr + 1) % 2 ^ 64 }

/-! ## The two threads -/

/-- The stuffing loop in front of a packet. -/
structure Stuffing where
  pkt : TsPacket
  nsPerPkt : Nat
  target : Nat

/-- Where `tsp_enqueue` is, by what comes next. -/
inductive Pc where
  | idle
  /-- The test of the stuffing loop. -/
  | stuff (l : Stuffing)
  /-- The loads of `head` and `tail` behind a null packet. -/
  | stuffed (l : Stuffing)
  /-- `push_packet` for the packet itself. -/
  | push (pkt : TsPacket)

/-- `null_pkt` of `push_null_packet`. -/
def nullPkt : TsPacket := fun i =>
  if i = 0 then 0x47 else if i = 1 then 0x1F else if i = 3 then 0x10 else 0xFF

/-- `tsp_handle_t` with its two threads, and what was accepted, pushed (`none`: a null packet) and
    sent so far.  `head` and `tail` do not wrap here: the size of the ring divides `2^64`. -/
structure Handle where
  ringBuffer : Nat → TsPacket
  tsBuffer : Nat → Nat
  head : Nat
  tail : Nat
  sched : Schedule
  pc : Pc
  /-- The batch of `tx_loop`, as far as it is copied. -/
  tx : Option (List TsPacket)
  accepted : List TsPacket
  log : List (Option TsPacket)
  sent : List TsPacket

def tspCreate : Handle :=
  ⟨fun _ _ => 0, fun _ => 0, 0, 0, ⟨invalidPcr, 0, 0, invalidPcr, 0, 0, 0, 0x1FFF⟩, .idle, none, [],
    [], []⟩

/-- A packet whose PCR is followed.  What the source writes behind the stuffing loop, and the loop
    does not read, is written here. -/
def Schedule.followPcr (cfg : Config) (s : Schedule) (pkt : TsPacket) (nowNs : Nat) :
    Schedule × Pc :=
  let pcr := tsaPktGetPcr pkt
  if s.basePcrTicks = invalidPcr ∨ pcr < s.lastPcrValTx then
    ({ pacerSyncWallclock s pcr nowNs with lastPcrValTx := pcr }, .push pkt)
  else
    let target := s.targetWallNs pcr
    let estimate := s.estimate target
    let s' := { s with
      estimatedBitrate := estimate, lastPcrWallNs := target, lastPcrValTx := pcr
      pktsSincePcr := 0 }
    if cfg.rate estimate = 0 then ({ s' with lastScheduledNs := target }, .push pkt)
    else (s', .stuff ⟨pkt, nsPerPkt (cfg.rate estimate), target⟩)

/-- `tsp_enqueue` between the admission of a packet and its first access to the ring. -/
def enqueue (cfg : Config) (s : Schedule) (pkt : TsPacket) (nowNs : Nat) : Schedule × Pc :=
  let s' := s.heard cfg pkt
  if s'.follows cfg pkt then s'.followPcr cfg pkt nowNs else (s'.advance cfg nowNs, .push pkt)

/-- A step of the producer beside the ring. -/
def Handle.goto (h : Handle) (s : Schedule) (pc : Pc) (accepted : List TsPacket) : Handle :=
  { h with sched := s, pc := pc, accepted := accepted }

/-- `push_packet`, at `last_scheduled_ns`. -/
def Handle.pushPacket (h : Handle) (e : Option TsPacket) (s : Schedule) (pc : Pc) : Handle :=
  let idx := h.head % ringBufferSize
  { h with
    ringBuffer := update h.ringBuffer idx (e.getD nullPkt)
    tsBuffer := update h.tsBuffer idx s.lastScheduledNs
    head := h.head + 1
    log := h.log ++ [e]
    sched := s, pc := pc }

/-- The next step of the packet that was admitted. -/
def produce (h : Handle) : Handle :=
  match h.pc with
  | .idle => h
  | .stuff l =>
    let next := (h.sched.lastScheduledNs + l.nsPerPkt) % 2 ^ 64
    if next < l.target then
      h.pushPacket none { h.sched with lastScheduledNs := next } (.stuffed l)
    else h.goto { h.sched with lastScheduledNs := l.target } (.push l.pkt) h.accepted
  | .stuffed l =>
    if ringBufferSize - 20 ≤ h.head - h.tail then
      h.goto { h.sched with lastScheduledNs := l.target } (.push l.pkt) h.accepted
    else h.goto h.sched (.stuff l) h.accepted
  | .push pkt => h.pushPacket (some pkt) h.sched .idle

def Config.batchSize (cfg : Config) : Nat := if cfg.tsPerUdp ≠ 0 then cfg.tsPerUdp else 7

/-- A batch that is more than 500 ms late makes the clock start anew. -/
def Schedule.late (s : Schedule) (target nowNs : Nat) : Schedule :=
  if (target + 500000000) % 2 ^ 64 < nowNs then { s with basePcrTicks := invalidPcr } else s

/-- A step of `tx_loop` in front of the store of `tail`. -/
def Handle.collect (h : Handle) (s : Schedule) (batch : List TsPacket) : Handle :=
  { h with sched := s, tx := some batch }

def Handle.storeTail (cfg : Config) (h : Handle) (batch : List TsPacket) : Handle :=
  { h with tail := h.tail + cfg.batchSize, tx := none, sent := h.sent ++ batch }

/-- The next step of `tx_loop`. -/
def transmit (cfg : Config) (h : Handle) (nowNs : Nat) : Handle :=
  match h.tx with
  | none =>
    let target := h.tsBuffer (h.tail % ringBufferSize)
    if h.head - h.tail < cfg.batchSize ∨ nowNs < target then h
    else h.collect (h.sched.late target nowNs) []
  | some batch =>
    if batch.length < cfg.batchSize then
      h.collect h.sched (batch ++ [h.ringBuffer ((h.tail + batch.length) % ringBufferSize)])
    else h.storeTail cfg batch

inductive Act where
  /-- The next packet of `tsp_enqueue`. -/
  | offer (pkt : TsPacket) (nowNs : Nat)
  | produce
  | transmit (nowNs : Nat)

def step (cfg : Config) (h : Handle) : Act → Handle
  | .offer pkt nowNs =>
    match h.pc with
    | .idle =>
      if ringBufferSize - (h.head - h.tail) < 256 then h
      else
        let r := enqueue cfg h.sched pkt nowNs
        h.goto r.1 r.2 (h.accepted ++ [pkt])
    | _ => h
  | .produce => produce h
  | .transmit nowNs => transmit cfg h nowNs

/-! ## The ring -/

/-- The packet admitted and not yet pushed. -/
def Pc.pending : Pc → List TsPacket
  | .idle => []
  | .stuff l | .stuffed l => [l.pkt]
  | .push pkt => [pkt]

/-- How many packets may be in the ring. -/
def Pc.limit : Pc → Nat
  | .idle => 16365
  | .stuff _ => 16363
  | .stuffed _ | .push _ => 16364

theorem Pc.limit_lt (pc : Pc) : pc.limit < ringBufferSize := by
  cases pc <;> simp [Pc.limit, ringBufferSize]

/-- Everything pushed. -/
def Handle.packets (h : Handle) : List TsPacket := h.log.map (Option.getD · nullPkt)

def Handle.unsent (h : Handle) : List TsPacket := h.packets.drop h.tail

structure Sound (cfg : Config) (h : Handle) : Prop where
  tail : h.tail ≤ h.head
  pushed : h.packets.length = h.head
  laid : Fifo.Laid ringBufferSize h.ringBuffer h.tail h.unsent
  room : h.head - h.tail ≤ h.pc.limit
  accepted : h.log.reduceOption ++ h.pc.pending = h.accepted
  sent : h.sent = h.packets.take h.tail
  batch : ∀ b, h.tx = some b → b.length ≤ cfg.batchSize ∧ cfg.batchSize ≤ h.head - h.tail ∧
    b = h.unsent.take b.length

variable {cfg : Config} {h : Handle}

theorem Sound.unsent_length (hs : Sound cfg h) : h.unsent.length = h.head - h.tail := by
  rw [Handle.unsent, length_drop, hs.pushed]

theorem Sound.goto (hs : Sound cfg h) (s : Schedule) {pc : Pc} {acc : List TsPacket}
    (hroom : h.head - h.tail ≤ pc.limit) (hacc : h.log.reduceOption ++ pc.pending = acc) :
    Sound cfg (h.goto s pc acc) :=
  { hs with room := hroom, accepted := hacc }

/-- The slot written is none of those from `tail` to `head`. -/
theorem Sound.pushPacket (hs : Sound cfg h) {e : Option TsPacket} (s : Schedule) {pc : Pc}
    (hroom : h.head + 1 - h.tail ≤ pc.limit)
    (hacc : h.log.reduceOption ++ (e.toList ++ pc.pending) = h.accepted) :
    Sound cfg (h.pushPacket e s pc) := by
  have hlen := hs.unsent_length
  have htail := hs.tail
  have hlimit := pc.limit_lt
  have hpackets : (h.pushPacket e s pc).packets = h.packets ++ [e.getD nullPkt] := map_append
  have hunsent : (h.pushPacket e s pc).unsent = h.unsent ++ [e.getD nullPkt] := by
    rw [Handle.unsent, hpackets]
    exact drop_append_of_le_length (hs.pushed ▸ htail)
  refine ⟨Nat.le_succ_of_le htail, ?_, ?_, hroom, ?_, ?_, fun b hb => ?_⟩
  · rw [hpackets, length_append, hs.pushed]
    rfl
  · have hslot : h.head = h.tail + h.unsent.length := by omega
    rw [hunsent]
    show Fifo.Laid _ (update h.ringBuffer (h.head % ringBufferSize) _) _ _
    rw [hslot]
    exact (hs.laid.write (by omega) _).snoc (update_self ..)
  · show (h.log ++ [e]).reduceOption ++ _ = _
    rw [reduceOption_append, append_assoc]
    cases e <;> exact hacc
  · rw [hpackets, take_append_of_le_length (hs.pushed ▸ htail)]
    exact hs.sent
  · obtain ⟨hle, hsize, hcopied⟩ := hs.batch b hb
    refine ⟨hle, Nat.le_trans hsize (Nat.sub_le_sub_right (Nat.le_succ _) _), ?_⟩
    rw [hunsent, take_append_of_le_length (by omega)]
    exact hcopied

theorem enqueue_pc (cfg : Config) (s : Schedule) (pkt : TsPacket) (nowNs : Nat) :
    (enqueue cfg s pkt nowNs).2 = .push pkt ∨
      ∃ ns target, (enqueue cfg s pkt nowNs).2 = .stuff ⟨pkt, ns, target⟩ := by
  simp only [enqueue, Schedule.followPcr]
  split_ifs <;> simp

theorem Sound.produce (hs : Sound cfg h) : Sound cfg (produce h) := by
  have hroom := hs.room
  have hacc := hs.accepted
  rw [Pacer.produce]
  cases hpc : h.pc <;> rw [hpc, Pc.limit] at hroom <;> rw [hpc] at hacc <;> dsimp only
  case idle => exact hs
  case stuff =>
    split
    · exact hs.pushPacket _ (by rw [Pc.limit]; omega) hacc
    · exact hs.goto _ (Nat.le_succ_of_le hroom) hacc
  case stuffed =>
    -- the loop goes on only below the limit, so the next null packet has room
    split
    · exact hs.goto _ hroom hacc
    · exact hs.goto _ (Nat.le_of_lt_succ (Nat.not_le.mp ‹_›)) hacc
  case push => exact hs.pushPacket _ (by rw [Pc.limit]; omega) hacc

theorem Sound.collect (hs : Sound cfg h) (s : Schedule) {b : List TsPacket}
    (hle : b.length ≤ cfg.batchSize) (hsize : cfg.batchSize ≤ h.head - h.tail)
    (hcopied : b = h.unsent.take b.length) : Sound cfg (h.collect s b) :=
  { hs with batch := fun _ hb => Option.some.inj hb ▸ ⟨hle, hsize, hcopied⟩ }

theorem Sound.transmit (hs : Sound cfg h) (nowNs : Nat) : Sound cfg (transmit cfg h nowNs) := by
  have hlen := hs.unsent_length
  have htail := hs.tail
  rw [Pacer.transmit]
  split
  · dsimp only
    split
    · exact hs
    · rename_i hready
      rw [not_or, Nat.not_lt] at hready
      exact hs.collect _ (Nat.zero_le _) hready.1 take_zero.symm
  · rename_i b hb
    obtain ⟨hle, hsize, hcopied⟩ := hs.batch b hb
    split
    · -- one more packet of the batch
      rename_i hlt
      have hk : b.length < h.unsent.length := by omega
      have hlen' : ∀ x, (b ++ [x]).length = b.length + 1 := fun _ => length_append
      refine hs.collect _ (hlen' _ ▸ hlt) hsize ?_
      rw [hlen', hs.laid _ hk, ← take_append_getElem hk, ← hcopied]
    · -- the batch is sent
      rw [show b.length = cfg.batchSize by omega] at hcopied
      refine { hs with tail := ?_, laid := ?_, room := ?_, sent := ?_, batch := ?_ }
      · show h.tail + cfg.batchSize ≤ h.head
        omega
      · rw [show (h.storeTail cfg b).unsent = h.unsent.drop cfg.batchSize from drop_drop.symm]
        exact hs.laid.advance _
      · exact Nat.le_trans (Nat.sub_le_sub_left (Nat.le_add_right ..) _) hs.room
      · show h.sent ++ b = h.packets.take (h.tail + cfg.batchSize)
        rw [take_add, ← hs.sent, ← Handle.unsent, ← hcopied]
      · rintro _ ⟨⟩

theorem Sound.step (hs : Sound cfg h) (a : Act) : Sound cfg (step cfg h a) := by
  cases a with
  | produce => exact hs.produce
  | transmit nowNs => exact hs.transmit nowNs
  | offer pkt nowNs =>
    have hacc := hs.accepted
    rw [Pacer.step]
    split
    · rename_i hpc
      rw [hpc, Pc.pending, append_nil] at hacc
      split
      · exact hs
      · rename_i hfree
        have hroom : h.head - h.tail ≤ 16363 := by simp only [ringBufferSize] at hfree; omega
        dsimp only
        rcases enqueue_pc cfg h.sched pkt nowNs with hw | ⟨ns, target, hw⟩ <;> rw [hw, ← hacc]
        · exact hs.goto _ (Nat.le_succ_of_le hroom) rfl
        · exact hs.goto _ hroom rfl
    · exact hs

/-- **The pacer loses and reorders nothing.**  In every interleaving of `tsp_enqueue` and `tx_loop`
    the ring is never full and its slots from `tail` on hold what was pushed and not sent; what was
    pushed is what was sent, followed by that: the accepted packets in order, with null packets in
    between. -/
theorem pacer_fifo (cfg : Config) (acts : List Act) :
    let h := acts.foldl (step cfg) tspCreate
    h.tail + h.unsent.length = h.head ∧ h.unsent.length < ringBufferSize ∧
      Fifo.Laid ringBufferSize h.ringBuffer h.tail h.unsent ∧ h.sent ++ h.unsent = h.packets ∧
      h.log.reduceOption ++ h.pc.pending = h.accepted := by
  intro h
  have hs : Sound cfg h := along_inv (I := Sound cfg) (fun _ a hs _ => hs.step a) acts tspCreate
    ⟨Nat.le_refl 0, rfl, fun _ hk => absurd hk (Nat.not_lt_zero _), Nat.zero_le _, rfl, rfl,
      fun _ hb => absurd hb.symm (Option.some_ne_none _)⟩ (along_true ..) acts (prefix_refl _)
  have hlen := hs.unsent_length
  have htail := hs.tail
  have hroom := hs.room
  have hlimit := h.pc.limit_lt
  exact ⟨by omega, by omega, hs.laid, hs.sent ▸ take_append_drop _ _, hs.accepted⟩

end TsAnalyzer.Pacer
