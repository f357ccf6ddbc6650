/-
  The byte counters of a PID, and what they add up to.

  The ledger of a run (`Shaper/Ledger.lean`) fixes them: with n packets offered, c DTS counted,
  s packets sent, r packets written by a rotation and f bytes flushed,

    * rx_bytes_total                        = 188 (n + c);
    * fifo_accept_bytes + drop_bytes_total  = 188 n;
    * tss_fifo_size(ts_fifo)                = fifo_accept_bytes + 188 r - 188 s - f.

  So the books balance exactly as long as no DTS was counted and no PSI FIFO was rotated: the
  former adds 188 bytes that nobody received, the latter writes a packet that is counted as dropped.
-/
import TsAnalyzer.Shaper.Integrity

namespace TsAnalyzer.Shaper

open Lib List

variable {μ : Type}

/-! ## What an act weighs -/

namespace Act

def offers : Act → Nat
  | .offered .. => 1
  | _ => 0

def accepts : Act → Nat
  | .offered _ .accepted => 1
  | _ => 0

/-- A packet is written by a rotation: it is counted as dropped, but queued. -/
def rotates : Act → Nat
  | .offered _ (.rotated _) => 1
  | _ => 0

def sends : Act → Nat
  | .sent _ => 1
  | _ => 0

def counts : Act → Nat
  | .counted => 1
  | _ => 0

/-- The bytes that a re-anchor, a reset or a rotation flushes. -/
def flushes : Act → Nat
  | .offered _ (.rotated n) => n
  | .flushed n => n
  | .cleared n => n
  | _ => 0

end Act

/-- The acts of a ledger, weighed. -/
def total (w : Act → Nat) (acts : List Act) : Nat := (acts.map w).sum

theorem total_cons (w : Act → Nat) (a : Act) (acts : List Act) :
    total w (a :: acts) = w a + total w acts := sum_cons

theorem total_eq_zero_iff (w : Act → Nat) (acts : List Act) :
    total w acts = 0 ↔ ∀ a ∈ acts, w a = 0 := by
  unfold total
  rw [sum_eq_zero_iff, forall_mem_map]

theorem length_sentOf (acts : List Act) : (sentOf acts).length = total Act.sends acts := by
  induction acts with
  | nil => rfl
  | cons a acts ih =>
    rw [total_cons, ← ih, Nat.add_comm]
    cases a <;> rfl

theorem length_offeredOf (acts : List Act) : (offeredOf acts).length = total Act.offers acts := by
  induction acts with
  | nil => rfl
  | cons a acts ih =>
    rw [total_cons, ← ih, Nat.add_comm]
    cases a <;> rfl

/-! ## One act -/

theorem Books.after_totals (b : Books) (a : Act) :
    (b.after a).rxBytesTotal = b.rxBytesTotal + 188 * (a.offers + a.counts) ∧
    (b.after a).fifoAcceptBytes = b.fifoAcceptBytes + 188 * a.accepts ∧
    (b.after a).fifoAcceptBytes + (b.after a).dropBytesTotal =
      b.fifoAcceptBytes + b.dropBytesTotal + 188 * a.offers := by
  have hsize : (tsPacketSize : Int) = 188 := rfl
  cases a with
  | offered x fate =>
    cases fate <;>
      simp only [Books.after, Act.offers, Act.counts, Act.accepts, hsize] <;> omega
  | counted =>
    simp only [Books.after, Act.offers, Act.counts, Act.accepts, hsize]
    omega
  | _ => exact ⟨(Int.add_zero _).symm, (Int.add_zero _).symm, (Int.add_zero _).symm⟩

theorem Moves.balance {ps qs : List (List UInt8)} {a : Act} (h : Moves ps a qs) :
    188 * qs.length + 188 * a.sends + a.flushes =
      188 * ps.length + 188 * a.accepts + 188 * a.rotates := by
  have hsize : tsPacketSize = 188 := rfl
  cases h <;>
    simp only [Act.sends, Act.flushes, Act.accepts, Act.rotates, length_append,
      length_cons, length_nil, hsize] <;> omega

/-! ## A ledger -/

/-- **The counters**, by the ledger. -/
theorem foldl_totals (acts : List Act) : ∀ b : Books,
    (acts.foldl Books.after b).rxBytesTotal =
      b.rxBytesTotal + 188 * (total Act.offers acts + total Act.counts acts) ∧
    (acts.foldl Books.after b).fifoAcceptBytes =
      b.fifoAcceptBytes + 188 * total Act.accepts acts ∧
    (acts.foldl Books.after b).fifoAcceptBytes + (acts.foldl Books.after b).dropBytesTotal =
      b.fifoAcceptBytes + b.dropBytesTotal + 188 * total Act.offers acts := by
  induction acts with
  | nil =>
    intro b
    exact ⟨(Int.add_zero _).symm, (Int.add_zero _).symm, (Int.add_zero _).symm⟩
  | cons a acts ih =>
    intro b
    have hnow := b.after_totals a
    have hlater := ih (b.after a)
    simp only [foldl_cons, total_cons]
    omega

/-- **The queue**, by the ledger. -/
theorem History.balance {ps qs : List (List UInt8)} {acts : List Act} (h : History ps acts qs) :
    188 * qs.length + 188 * total Act.sends acts + total Act.flushes acts =
      188 * ps.length + 188 * total Act.accepts acts + 188 * total Act.rotates acts := by
  induction h with
  | nil => rfl
  | cons hm _ ih =>
    have hnow := hm.balance
    simp only [total_cons]
    omega

/-! ## The accounting -/

/-- The books of a PID balance, after the acts of its ledger. -/
structure Balanced (p : PidState) (acts : List Act) : Prop where
  received : p.rxBytesTotal = p.fifoAcceptBytes + p.dropBytesTotal
  offered : p.rxBytesTotal = 188 * (offeredOf acts).length
  queued : p.tsFifo.size = p.fifoAcceptBytes - 188 * (sentOf acts).length -
    total Act.flushes acts

/-- The event neither counts a DTS for the PID nor rotates its FIFO. -/
def Plain (si : SiCallback μ) (i : Nat) (s : Tsshaper μ) (e : Event) : Prop :=
  ∀ a ∈ actsOf si i s e, a.counts = 0 ∧ a.rotates = 0
deriving Decidable

/-- **The byte accounting of a PID holds exactly in the runs** in which no DTS is counted for it
    and its FIFO is never rotated. -/
theorem byte_accounting_iff (si : SiCallback μ) (s : Tsshaper μ) (hs : SetUp s)
    (events : List Event) (i : Nat) (hi : i < s.core.layout.nbAllPids) :
    Balanced ((run (ledgerPush si i) s events).1.core.pids i) (run (ledgerPush si i) s events).2 ↔
      Along (Plain si i) (eventStep si) s events := by
  obtain ⟨qs, hhistory, hqueued⟩ := run_queued si hs hi events
  have hqueue := hhistory.balance
  have hsize := hqueued.queues.size
  obtain ⟨hrx, haccept, hboth⟩ := foldl_totals (run (ledgerPush si i) s events).2
    (s.core.pids i).books
  rw [(run_kept si hi events).2] at hrx haccept hboth
  obtain ⟨pidNum, type, br, hnew⟩ := hs.pids i hi
  rw [hnew] at hrx haccept hboth
  -- the run is plain when nothing in its ledger is counted or rotates
  have hplain : Along (Plain si i) (eventStep si) s events ↔
      total Act.counts (run (ledgerPush si i) s events).2 = 0 ∧
        total Act.rotates (run (ledgerPush si i) s events).2 = 0 := by
    have hall : (∀ a ∈ (run (ledgerPush si i) s events).2, a.counts = 0 ∧ a.rotates = 0) ↔
        Along (fun t e => ∀ a ∈ (ledgerPush si i t e).2, a.counts = 0 ∧ a.rotates = 0)
          (fun t e => (ledgerPush si i t e).1) s events := run_forall_iff
    rw [total_eq_zero_iff, total_eq_zero_iff, ← forall₂_and]
    exact hall.symm
  rw [hplain]
  have hsent := length_sentOf (run (ledgerPush si i) s events).2
  have hoffered := length_offeredOf (run (ledgerPush si i) s events).2
  generalize (run (ledgerPush si i) s events).2 = acts at hqueue hrx haccept hboth hsent hoffered ⊢
  generalize (run (ledgerPush si i) s events).1.core.pids i = p at hsize hrx haccept hboth ⊢
  have hbytes : p.tsFifo.size = 188 * qs.length := hsize
  have hrx' : p.rxBytesTotal = 188 * (total Act.offers acts + total Act.counts acts) :=
    hrx.trans (Int.zero_add _)
  have haccept' : p.fifoAcceptBytes = 188 * total Act.accepts acts := haccept.trans (Int.zero_add _)
  have hboth' : p.fifoAcceptBytes + p.dropBytesTotal = 188 * total Act.offers acts :=
    hboth.trans (Int.zero_add _)
  rw [length_nil] at hqueue
  constructor
  · rintro ⟨hreceived, -, hqueued⟩
    omega
  · rintro ⟨hcounts, hrotates⟩
    refine ⟨?_, ?_, ?_⟩ <;> omega

/-- Three packets without a DTS, with a reset after the first two: the books balance. -/
theorem resetRun_balanced :
    let r := run (ledgerPush noTables 0) ⟨Timeline.init, oneStream ⟨10000000, 35, 0, 0, 1⟩ 100⟩
      [.enqueueTs 0x100 (mediaPacket 0), .enqueueTs 0x100 (mediaPacket 1), .resetTimeline,
        .enqueueTs 0x100 (mediaPacket 2)]
    total Act.flushes r.2 = 376 ∧ Balanced (r.1.core.pids 0) r.2 :=
  ⟨by decide +kernel,
    (byte_accounting_iff noTables _ (oneStream_setUp _ _) _ 0 (by decide)).mpr (by decide +kernel)⟩

/-- **A DTS counts as a packet**: the first DTS of a stream leaves 188 bytes received, of which none
    was accepted or dropped. -/
theorem dts_unbalanced :
    let r := run (ledgerPush noTables 0)
      ⟨Timeline.init, oneStream ⟨10000000, 35, 0, 0, 1⟩ 100⟩ [.enqueueDts 0 0 true]
    ((r.1.core.pids 0).rxBytesTotal, (r.1.core.pids 0).fifoAcceptBytes,
        (r.1.core.pids 0).dropBytesTotal) = (188, 0, 0) ∧ offeredOf r.2 = [] ∧
      ¬ Balanced (r.1.core.pids 0) r.2 := by
  intro r
  have hcounters : ((r.1.core.pids 0).rxBytesTotal, (r.1.core.pids 0).fifoAcceptBytes,
      (r.1.core.pids 0).dropBytesTotal) = (188, 0, 0) := by decide +kernel
  refine ⟨hcounters, by decide +kernel, ?_⟩
  intro hbalanced
  simp only [Prod.mk.injEq] at hcounters
  have hreceived := hbalanced.received
  omega

end TsAnalyzer.Shaper
