/-
  What is sent of a PID is what was enqueued for it.

  The books of a PID hold a queue of packets in their byte ring (`Books.Queued`), and an act on the
  books is a move of the queue.  No move reorders, repeats or changes a packet.
-/
import TsAnalyzer.Shaper.Ledger

namespace TsAnalyzer.Shaper

open Lib List

variable {μ : Type}

/-! ## The abstract queue -/

/-- An act at a queue: the packets before it, and the packets after it. -/
inductive Moves : List (List UInt8) → Act → List (List UInt8) → Prop
  | accepted {ps x} : Moves ps (.offered x .accepted) (ps ++ [x])
  | dropped {ps x} : Moves ps (.offered x .dropped) ps
  | rotated {old ps x} : Moves (old ++ ps) (.offered x (.rotated (tsPacketSize * old.length)))
    (ps ++ [x])
  | sent {ps x} : Moves (x :: ps) (.sent x) ps
  | flushed {ps} : Moves ps (.flushed (tsPacketSize * ps.length)) []
  | cleared {ps} : Moves ps (.cleared (tsPacketSize * ps.length)) []
  | counted {ps} : Moves ps .counted ps

/-- Acts at a queue, oldest first. -/
inductive History : List (List UInt8) → List Act → List (List UInt8) → Prop
  | nil {ps} : History ps [] ps
  | cons {ps qs rs a as} : Moves ps a qs → History qs as rs → History ps (a :: as) rs

/-- The packets sent, oldest first. -/
def sentOf (acts : List Act) : List (List UInt8) :=
  acts.filterMap fun
    | .sent x => some x
    | _ => none

/-- The packets enqueued, oldest first. -/
def offeredOf (acts : List Act) : List (List UInt8) :=
  acts.filterMap fun
    | .offered x _ => some x
    | _ => none

/-- **Nothing is reordered, repeated or changed.** -/
theorem History.sublist {ps qs : List (List UInt8)} {acts : List Act} (h : History ps acts qs) :
    (sentOf acts ++ qs).Sublist (ps ++ offeredOf acts) := by
  induction h with
  | nil =>
    rw [offeredOf, filterMap_nil, append_nil]
    exact List.Sublist.refl _
  | cons hm _ ih =>
    cases hm with
    | accepted =>
      rw [append_assoc] at ih
      exact ih
    | dropped => exact ih.trans ((sublist_cons_self _ _).append_left _)
    | rotated =>
      rw [append_assoc] at ih ⊢
      exact ih.trans (sublist_append_right _ _)
    | sent => exact ih.cons_cons _
    | flushed | cleared => exact ih.trans (sublist_append_right _ _)
    | counted => exact ih

/-! ## Refinement -/

/-- The books hold a queue of packets, in a ring as wide as they say. -/
structure Books.Queued (b : Books) (packets : List (List UInt8)) : Prop where
  queues : b.tsFifo.Queues packets
  capacity : b.fifoCapacity = b.tsFifo.capacity
  wide : tsPacketSize ≤ b.tsFifo.capacity

/-- **An act on the books is a move of the queue.** -/
theorem Books.Queued.after {b : Books} {ps : List (List UInt8)} {a : Act} (h : b.Queued ps)
    (hfits : a.Fits b) : ∃ qs, Moves ps a qs ∧ (b.after a).Queued qs := by
  obtain ⟨hqueues, hcap, hwide⟩ := h
  cases a with
  | offered x fate =>
    cases fate with
    | accepted =>
      obtain ⟨hlen, hroom⟩ := hfits
      obtain ⟨hput, hcap'⟩ := hqueues.putBytes hlen (by omega)
      exact ⟨_, .accepted, hput, hcap.trans (congrArg Nat.cast hcap'.symm), by
        rw [show (b.after (.offered x .accepted)).tsFifo.capacity = _ from hcap']; exact hwide⟩
    | dropped => exact ⟨ps, .dropped, hqueues, hcap, hwide⟩
    | rotated n =>
      obtain ⟨hlen, hn⟩ := hfits
      obtain ⟨old, rest, rfl, hrest, hroom⟩ := hqueues.rotated hwide
      have hloop : (rotateLoop (b.tsFifo.drain tsPacketSize)).capacity = b.tsFifo.capacity :=
        rotateLoop_capacity _
      obtain ⟨hput, hcap'⟩ := hrest.putBytes hlen (by rw [hloop]; exact hroom)
      have hflushed : n = tsPacketSize * old.length := by
        rw [hn, hqueues.size, hrest.size, length_append, Nat.mul_add, Nat.add_sub_cancel]
      subst hflushed
      have hcap'' : (b.after (.offered x (.rotated (tsPacketSize * old.length)))).tsFifo.capacity =
          b.tsFifo.capacity := hcap'.trans hloop
      exact ⟨_, .rotated, hput, hcap.trans (congrArg Nat.cast hcap''.symm), by
        rw [hcap'']; exact hwide⟩
  | sent x =>
    have hsize : tsPacketSize ≤ b.tsFifo.size := by
      by_contra hless
      have hnone : b.tsFifo.read tsPacketSize = none := if_pos (Nat.lt_of_not_le hless)
      cases hnone.symm.trans hfits
    obtain ⟨y, rest, rfl⟩ := hqueues.exists_first hsize
    obtain rfl : y = x :=
      congrArg Prod.fst (Option.some.inj (hqueues.take.symm.trans hfits))
    exact ⟨rest, .sent, hqueues.drain, hcap, hwide⟩
  | flushed n =>
    obtain rfl : n = _ := hfits.trans hqueues.size
    exact ⟨[], .flushed, hqueues.emptied, hcap, hwide⟩
  | cleared n =>
    obtain rfl : n = _ := hfits.trans hqueues.size
    exact ⟨[], .cleared, hqueues.reset, hcap, hwide⟩
  | counted => exact ⟨ps, .counted, hqueues, hcap, hwide⟩

theorem Kept.history {acts : List Act} : ∀ {b d : Books} {ps : List (List UInt8)},
    Kept acts b d → b.Queued ps → ∃ qs, History ps acts qs ∧ d.Queued qs := by
  induction acts with
  | nil =>
    rintro b d ps ⟨-, rfl⟩ hq
    exact ⟨ps, .nil, hq⟩
  | cons a acts ih =>
    rintro b d ps ⟨⟨hfits, hrest⟩, heq⟩ hq
    obtain ⟨qs, hmove, hq'⟩ := hq.after hfits
    obtain ⟨rs, hhistory, hq''⟩ := ih ⟨hrest, heq⟩ hq'
    exact ⟨rs, .cons hmove hhistory, hq''⟩

/-! ## Runs -/

theorem pidRates_fifoCapacity (cfg : Config) (br : Nat) (type : PidType) :
    (tsPacketSize : Int) ≤ (pidRates cfg br type).fifoCapacity := by
  cases type with
  | video =>
    show (188 : Int) ≤ cfg.maxFifoSize
    unfold Config.maxFifoSize
    omega
  | audio => exact Int.le.intro 1048388 rfl
  | _ => exact Int.le.intro 261956 rfl

theorem newPid_queued (cfg : Config) (pidNum : Nat) (type : PidType) (br : Nat) :
    (newPid cfg pidNum type br).books.Queued [] := by
  have hwide := pidRates_fifoCapacity cfg br type
  have hcap : ((pidRates cfg br type).fifoCapacity.toNat : Int) =
      (pidRates cfg br type).fifoCapacity := Int.toNat_of_nonneg (by omega)
  have hpos : tsPacketSize ≤ (pidRates cfg br type).fifoCapacity.toNat := by omega
  exact ⟨(tssFifoAlloc_holds (Nat.lt_of_lt_of_le (by decide) hpos)).queues_nil, hcap.symm, hpos⟩

theorem SetUp.queued {s : Tsshaper μ} (hs : SetUp s) {i : Nat} (hi : i < s.core.layout.nbAllPids) :
    (s.core.pids i).books.Queued [] := by
  obtain ⟨pidNum, type, br, hnew⟩ := hs.pids i hi
  rw [hnew]
  exact newPid_queued ..

/-- Every FIFO holds whole packets. -/
def AllQueued (c : Core μ) : Prop :=
  ∀ i, i < c.layout.nbAllPids → ∃ packets, (c.pids i).books.Queued packets

theorem AllQueued.step {s : Tsshaper μ} (h : AllQueued s.core) (si : SiCallback μ) (e : Event) :
    AllQueued (eventStep si s e).core := by
  intro i hi
  rw [(eventStep_sameSetUp si s e).layout] at hi
  obtain ⟨packets, hq⟩ := h i hi
  obtain ⟨qs, -, hq'⟩ := (eventStep_kept si s e hi).history hq
  exact ⟨qs, hq'⟩

/-- **The byte ring of a PID refines its queue**, in every run. -/
theorem run_queued (si : SiCallback μ) {s : Tsshaper μ} (hs : SetUp s) {i : Nat}
    (hi : i < s.core.layout.nbAllPids) (events : List Event) :
    ∃ qs, History [] (run (ledgerPush si i) s events).2 qs ∧
      ((run (ledgerPush si i) s events).1.core.pids i).books.Queued qs :=
  (run_kept si hi events).history (hs.queued hi)

/-- **Payload integrity**, in every run of a shaper that was set up: the payload packets of a PID
    that are handed to `write_cb` are a subsequence of those enqueued for it, its FIFO holds whole
    packets, and in the state reached no payload slot finds its FIFO short of one. -/
theorem payload_integrity (si : SiCallback μ) (s : Tsshaper μ) (hs : SetUp s) (events : List Event)
    (i : Nat) (hi : i < s.core.layout.nbAllPids) :
    let r := run (ledgerPush si i) s events
    (sentOf r.2).Sublist (offeredOf r.2) ∧ tsPacketSize ∣ (r.1.core.pids i).tsFifo.size ∧
      ∀ j, (scheduled r.1.core).2 = .payload j →
        (((scheduled r.1.core).1.pids j).tsFifo.read tsPacketSize).isSome = true := by
  intro r
  obtain ⟨qs, hhistory, hqueued⟩ := run_queued si hs hi events
  refine ⟨?_, ?_, ?_⟩
  · exact (sublist_append_left _ qs).trans hhistory.sublist
  · exact ⟨qs.length, hqueued.queues.size⟩
  · intro j hpayload
    rw [TssFifo.read_eq (of_decide_eq_true (payload_hasPacket hpayload))]
    rfl

/-- A packet of PID 0x100 with payload and the given continuity counter. -/
def mediaPacket (cc : UInt8) : Packet := fun k =>
  if k = 0 then 0x47 else if k = 1 then 0x01 else if k = 3 then 0x10 ||| cc else 0

/-- Two packets are enqueued, and three slots run: the PCR, and both packets. -/
def twoPackets : List Event :=
  [.enqueueDts 0 0 true, .enqueueTs 0x100 (mediaPacket 0), .enqueueTs 0x100 (mediaPacket 1),
    .enterDrive, .slot, .slot, .slot, .leaveDrive]

theorem twoPackets_sent :
    let r := run (ledgerPush noTables 0)
      ⟨Timeline.init, oneStream ⟨10000000, 35, 0, 0, 1⟩ 100⟩ twoPackets
    sentOf r.2 = [bytesAt (mediaPacket 0) 0 188, bytesAt (mediaPacket 1) 0 188] ∧
      (sentOf r.2).Sublist (offeredOf r.2) ∧ tsPacketSize ∣ (r.1.core.pids 0).tsFifo.size ∧
      ∀ j, (scheduled r.1.core).2 = .payload j →
        (((scheduled r.1.core).1.pids j).tsFifo.read tsPacketSize).isSome = true :=
  ⟨by decide +kernel, payload_integrity noTables _ (oneStream_setUp _ _) twoPackets 0 (by decide)⟩

end TsAnalyzer.Shaper
