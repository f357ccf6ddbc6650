/-
  The caller's memory across `tsa_process_packet` and `tsa_feed_data`.

  Callers pass plain 188-byte buffers; the essence plugin keeps packet pointers and counts
  references behind them, so a call can change the 32-bit word 200 bytes behind a packet it keeps or
  lets go.
-/
import TsAnalyzer.Pipeline.Spec
import TsAnalyzer.Sync.Feed

namespace TsAnalyzer.Pipeline

open Lib Alarm Essence Packet Sync List

variable {ρ : Type}

/-! ## The live host -/

/-- What a packet finds, if it gets to the essence plugin. -/
def foundBy (E : Engines ρ) (h : Handle ρ) (m : Memory) (pkt : PacketPtr) (n : Nat) : List Found :=
  match intake E h (m.byte pkt) n with
  | .accepted h' res => [h'.found pkt res]
  | _ => []

/-- Handle and memory in the middle of a call, with what the call has done so far. -/
structure World (ρ : Type) where
  handle : Handle ρ
  mem : Memory
  ops : List RefOp
  founds : List Found

/-- `tsa_process_packet`, with its report. -/
def World.packet (E : Engines ρ) (n : Nat) (w : World ρ) (pkt : PacketPtr) : World ρ :=
  let o := tsaProcessPacket E w.handle w.mem pkt n
  ⟨o.handle, o.mem, w.ops ++ o.ops, w.founds ++ foundBy E w.handle w.mem pkt n⟩

/-- `h->current_packet_offset = offset`. -/
def World.atOffset (w : World ρ) (offset : Nat) : World ρ :=
  { w with handle := { w.handle with
      alarms := { w.handle.alarms with currentPacketOffset := offset } } }

/-- The host of `tsa_feed_data(h, data, len, n)` with `data` at address `addr`. -/
def liveHost (E : Engines ρ) (addr n : Nat) : Host (World ρ) where
  data w i := w.mem.caller (addr + i)
  packetInPlace w i offset := (w.atOffset offset).packet E n (.caller (addr + i))
  packetBuffered w _ offset := (w.atOffset offset).packet E n .syncBuffer
  dropLock w := { w with handle := { w.handle with
      alarms := { w.handle.alarms with signalLock := false } } }
  syncBufferWrite w i bytes :=
    { w with mem := { w.mem with syncBuffer := writeAt w.mem.syncBuffer i bytes } }

/-! ## Calls -/

/-- The analyzer between two calls. -/
structure Analyzer (ρ : Type) where
  feeder : Feeder
  handle : Handle ρ
  /-- All 188 bytes of `sync_buffer`, the stale ones included. -/
  syncBuffer : Nat → UInt8

/-- The two entry points. -/
inductive Entry where
  /-- `tsa_process_packet(h, pkt, n)` with `pkt` at this address. -/
  | processPacket (addr n : Nat)
  /-- `tsa_feed_data(h, data, len, n)` with `data` at this address. -/
  | feedData (addr len n : Nat)

/-- A call, and the caller's memory when it is made. -/
structure Call where
  memory : Nat → UInt8
  entry : Entry

/-- What a call does to the caller's memory. -/
structure Report where
  before : Nat → UInt8
  after : Nat → UInt8
  ops : List RefOp
  founds : List Found

/-- One call.  A call that leaves `sync_buffer` (`Fault`) has no defined outcome. -/
def callStep (E : Engines ρ) (a : Analyzer ρ) (c : Call) :
    Except Fault (Analyzer ρ × List Report) :=
  let w : World ρ := ⟨a.handle, ⟨c.memory, a.syncBuffer⟩, [], []⟩
  let report (w : World ρ) : List Report := [⟨c.memory, w.mem.caller, w.ops, w.founds⟩]
  match c.entry with
  | .processPacket addr n =>
    let w := w.packet E n (.caller addr)
    .ok (⟨a.feeder, w.handle, w.mem.syncBuffer⟩, report w)
  | .feedData addr len n =>
    match tsaFeedData (liveHost E addr n) a.feeder w len with
    | .error e => .error e
    | .ok (f, w) => .ok (⟨f, w.handle, w.mem.syncBuffer⟩, report w)

/-- The operations are those of the packets, and all that happens to the caller's memory. -/
def World.Accounts (before : Nat → UInt8) (w : World ρ) : Prop :=
  w.ops = w.founds.flatMap Found.ops ∧
    w.mem.caller = w.ops.foldl (fun m op => op.onCaller m) before

theorem World.packet_accounts (E : Engines ρ) (n : Nat) {before : Nat → UInt8} {w : World ρ}
    (hw : w.Accounts before) (pkt : PacketPtr) : (w.packet E n pkt).Accounts before := by
  obtain ⟨hops, hmem⟩ := hw
  rcases tsaProcessPacket_cases E w.handle w.mem pkt n with
    ⟨h', hin, -, -, ho⟩ | ⟨ph, h', res, hin, -, -, ho⟩ |
    ⟨ph, h', res, env, hin, -, -, -, -, -, heff⟩
  · simp only [World.Accounts, World.packet, foundBy, hin, ho, append_nil]
    exact ⟨hops, hmem⟩
  · simp only [World.Accounts, World.packet, foundBy, hin, ho, append_nil]
    exact ⟨hops, hmem⟩
  · simp only [World.Accounts, World.packet, foundBy, hin, heff.ops, heff.caller]
    refine ⟨?_, ?_⟩
    · rw [flatMap_append, ← hops, flatMap_singleton]
    · rw [foldl_append, ← hmem]

theorem liveHost_accounts (E : Engines ρ) (addr n : Nat) (before : Nat → UInt8) :
    (liveHost E addr n).Keeps (World.Accounts (ρ := ρ) before) where
  packetInPlace w _ offset hw := World.packet_accounts E n (w := w.atOffset offset) hw _
  packetBuffered w _ offset hw := World.packet_accounts E n (w := w.atOffset offset) hw _
  dropLock _ hw := hw
  syncBufferWrite _ _ _ hw := hw

/-- What a call reports accounts for what it did to memory. -/
def Report.Accounts (r : Report) : Prop :=
  r.ops = r.founds.flatMap Found.ops ∧ r.after = r.ops.foldl (fun m op => op.onCaller m) r.before

theorem callStep_accounts (E : Engines ρ) {a a' : Analyzer ρ} {c : Call} {rs : List Report}
    (h : callStep E a c = .ok (a', rs)) : ∀ r ∈ rs, r.Accounts := by
  obtain ⟨memory, entry⟩ := c
  have hstart : World.Accounts (ρ := ρ) memory ⟨a.handle, ⟨memory, a.syncBuffer⟩, [], []⟩ :=
    ⟨rfl, rfl⟩
  cases entry with
  | processPacket addr n =>
    injection h with h
    injection h with _ h
    subst h
    intro r hr
    rw [mem_singleton] at hr
    exact hr ▸ World.packet_accounts E n hstart (.caller addr)
  | feedData addr len n =>
    simp only [callStep] at h
    split at h
    · cases h
    · rename_i f w hfeed
      injection h with h
      injection h with _ h
      subst h
      intro r hr
      rw [mem_singleton] at hr
      exact hr ▸ tsaFeedData_keeps (liveHost_accounts E addr n memory) _ _ _ hstart hfeed

/-! ## Exactness -/

/-- A reference-count operation moves a 32-bit word by one, so it leaves the caller's memory alone
    only where it does not get there. -/
theorem onCaller_eq_iff (op : RefOp) (m : Nat → UInt8) :
    op.onCaller m = m ↔ op.pkt = .syncBuffer := by
  constructor
  · intro h
    cases hpkt : op.pkt with
    | syncBuffer => rfl
    | caller addr =>
      exfalso
      have hdelta : 0 < op.delta ∧ op.delta < 2 ^ 32 := by cases op <;> simp [RefOp.delta]
      have hload := load32_lt m (addr + refCountOffset)
      refine store32_ne (m := m) (a := addr + refCountOffset)
        (v := load32 m (addr + refCountOffset) + op.delta) (by omega) ?_
      simpa only [RefOp.onCaller, hpkt] using h
  · intro h
    simp only [RefOp.onCaller, h]

/-- Memory is as before the call at every moment of it. -/
def Report.Untouched (r : Report) : Prop :=
  ∀ pre, pre <+: r.ops → pre.foldl (fun m op => op.onCaller m) r.before = r.before

theorem untouched_iff (ops : List RefOp) (m : Nat → UInt8) :
    (∀ pre, pre <+: ops → pre.foldl (fun m op => op.onCaller m) m = m) ↔
      ∀ op ∈ ops, op.pkt = .syncBuffer := by
  induction ops with
  | nil =>
    refine ⟨fun _ _ h => absurd h not_mem_nil, fun _ pre hpre => ?_⟩
    rw [prefix_nil.mp hpre]
    rfl
  | cons op ops ih =>
    constructor
    · intro h
      have hop : op.onCaller m = m := h [op] ⟨ops, rfl⟩
      -- the first operation does nothing, so the others meet the same memory
      have hrest := ih.mp fun pre hpre => by
        have := h (op :: pre) ((prefix_cons_inj op).mpr hpre)
        rwa [foldl_cons, hop] at this
      intro o ho
      rcases mem_cons.mp ho with rfl | ho
      · exact (onCaller_eq_iff o m).mp hop
      · exact hrest o ho
    · intro h pre hpre
      cases pre with
      | nil => rfl
      | cons o pre =>
        obtain ⟨rfl, hpre'⟩ := cons_prefix_cons.mp hpre
        rw [foldl_cons, (onCaller_eq_iff o m).mpr (h o (mem_cons_self ..))]
        exact ih.mpr (fun o' ho' => h o' (mem_cons_of_mem _ ho')) pre hpre'

namespace Found

/-- No packet that would be let go lies in the caller's memory. -/
def KeepsNone (f : Found) : Prop :=
  f.refs.length ≤ pesMaxRefs → ∀ r ∈ f.refs, r.pkt = .syncBuffer
deriving Decidable

/-- The packet neither keeps nor lets go of anything in the caller's memory: it is a null packet;
    or it resets its track and nothing of the caller's is accumulated; or it has no payload; or it
    lies in `sync_buffer`, where a unit start also needs that nothing of the caller's is
    accumulated; or the accumulator is full. -/
def Quiet (f : Found) : Prop :=
  f.res.pid = 0x1FFF ∨
  (f.Resets ∧ f.KeepsNone) ∨
  (¬ f.Resets ∧ (f.res.payloadLen = 0 ∨
    (f.res.pusi ∧ f.pkt = .syncBuffer ∧ f.KeepsNone) ∨
    (!f.res.pusi ∧ (f.pkt = .syncBuffer ∨ pesMaxRefs ≤ f.refs.length))))
deriving Decidable

theorem dropOps_quiet_iff (f : Found) :
    (∀ op ∈ dropOps f.refs, op.pkt = .syncBuffer) ↔ f.KeepsNone := by
  rw [dropOps, KeepsNone]
  split
  · rename_i hlen
    simp [hlen, RefOp.pkt]
  · rename_i hlen
    simp [hlen]

theorem ops_quiet_iff (f : Found) : (∀ op ∈ f.ops, op.pkt = .syncBuffer) ↔ f.Quiet := by
  rw [Quiet]
  by_cases hnull : f.res.pid = 0x1FFF
  · simp [ops, hnull]
  by_cases hreset : f.Resets
  · simp [ops, hnull, hreset, dropOps_quiet_iff]
  by_cases hpay : f.res.payloadLen = 0
  · simp [ops, hnull, hreset, hpay]
  by_cases hpusi : f.res.pusi
  · have hops : f.ops = dropOps f.refs ++ [.ref f.pkt] := by
      simp [ops, hnull, hreset, hpay, hpusi]
    rw [hops, forall_mem_append, forall_mem_singleton, dropOps_quiet_iff]
    simp [hnull, hreset, hpay, hpusi, RefOp.pkt, and_comm]
  · rcases Nat.lt_or_ge f.refs.length pesMaxRefs with hlen | hlen
    · simp [ops, hnull, hreset, hpay, hpusi, hlen, Nat.not_le.mpr hlen, RefOp.pkt]
    · simp [ops, hnull, hreset, hpay, hpusi, hlen, Nat.not_lt.mpr hlen]

end Found

theorem Report.untouched_iff_quiet {r : Report} (hr : r.Accounts) :
    r.Untouched ↔ ∀ f ∈ r.founds, f.Quiet := by
  rw [Report.Untouched, untouched_iff, hr.1]
  simp only [forall_mem_flatMap, Found.ops_quiet_iff]

/-- **The caller's memory**, for every sequence of calls on every analyzer: each call changes it by
    the reference-count operations it reports and nothing else, and it is untouched at every moment
    of every call exactly when every packet that gets to the accumulator is quiet. -/
theorem callerMemory_untouched_iff (E : Engines ρ) (a a' : Analyzer ρ) (calls : List Call)
    (reports : List Report) (hrun : runE (callStep E) a calls = .ok (a', reports)) :
    (∀ r ∈ reports, r.after = r.ops.foldl (fun m op => op.onCaller m) r.before) ∧
      ((∀ r ∈ reports, r.Untouched) ↔ ∀ r ∈ reports, ∀ f ∈ r.founds, f.Quiet) := by
  have hacc : ∀ r ∈ reports, r.Accounts :=
    runE_outputs (fun _ _ _ _ h => callStep_accounts E h) calls a (a', reports) hrun
  refine ⟨fun r hr => (hacc r hr).2, ?_⟩
  exact forall₂_congr fun r hr => Report.untouched_iff_quiet (hacc r hr)

/-- An analyzer as `tsa_create` leaves it. -/
def Analyzer.fresh (config : AlertConfig) (rest : ρ) : Analyzer ρ :=
  ⟨Feeder.fresh, Handle.fresh config rest, fun _ => 0⟩

/-- Memory that holds one packet of PID 0x100 at address 0, and zeros behind it. -/
def onePacket : Nat → UInt8 := fun i => [0x47, 0x01, 0x00, 0x10].getD i 0

def nullPacket : Nat → UInt8 := fun i => [0x47, 0x1F, 0xFF, 0x10].getD i 0

/-- A packet of PID 0x100 in two pieces. -/
def inPieces (pidByte flags : UInt8) : List Call :=
  let packet : Nat → UInt8 := fun i => [0x47, pidByte, 0x00, flags].getD i 0
  [⟨packet, .feedData 0 100 0⟩, ⟨packet, .feedData 100 88 0⟩]

/-- A unit start, its continuation and the next unit start are delivered from `sync_buffer`, kept
    and let go, and leave the caller's memory alone. -/
theorem inPieces_untouched : ∃ a' reports,
    runE (callStep Engines.idle)
      { Analyzer.fresh ⟨"", 0, 0, false, false⟩ () with feeder := ⟨.locked, 5, [], 0⟩ }
      (inPieces 0x41 0x10 ++ inPieces 0x01 0x11 ++ inPieces 0x41 0x12) = .ok (a', reports) ∧
    (∀ r ∈ reports, r.Untouched) ∧
    (reports.flatMap Report.founds).map (fun f => (f.pkt, f.res.pusi, f.refs.length)) =
      [(.syncBuffer, true, 0), (.syncBuffer, false, 1), (.syncBuffer, true, 2)] := by
  obtain ⟨a', reports, hrun, hquiet, hfounds⟩ := exists_ok_of_any
    (x := runE (callStep Engines.idle)
      { Analyzer.fresh ⟨"", 0, 0, false, false⟩ () with feeder := ⟨.locked, 5, [], 0⟩ }
      (inPieces 0x41 0x10 ++ inPieces 0x01 0x11 ++ inPieces 0x41 0x12))
    (P := fun reports => (∀ r ∈ reports, ∀ f ∈ r.founds, f.Quiet) ∧
      (reports.flatMap Report.founds).map (fun f => (f.pkt, f.res.pusi, f.refs.length)) =
        [(.syncBuffer, true, 0), (.syncBuffer, false, 1), (.syncBuffer, true, 2)])
    (by decide +kernel)
  exact ⟨a', reports, hrun,
    (callerMemory_untouched_iff Engines.idle _ a' _ reports hrun).2.mpr hquiet, hfounds⟩

/-- **One packet on a fresh analyzer is enough**: behind the 188 bytes of the packet, byte 200 of
    the caller's memory is counted up. -/
theorem callerMemory_changed : ∃ a' r,
    callStep Engines.idle (.fresh ⟨"", 0, 0, false, false⟩ ()) ⟨onePacket, .processPacket 0 0⟩ =
      .ok (a', [r]) ∧ r.before 200 = 0 ∧ r.after 200 = 1 :=
  ⟨_, _, rfl, rfl, rfl⟩

end TsAnalyzer.Pipeline
