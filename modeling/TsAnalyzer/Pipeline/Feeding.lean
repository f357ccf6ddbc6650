/-
  `tsa_feed_data` on the live handle.

  The calls of the analyzer are calls in the sense of `Sync.feedStep` (`callStep_feedData`), so what
  holds of these on every host holds of them.  The bytes that a call sees need not be those it was
  given: a packet taken in place is counted 200 bytes behind, and that can be a sync byte of the
  same chunk.
-/
import TsAnalyzer.Pipeline.CallerMemory
import TsAnalyzer.Sync.Chunking
import TsAnalyzer.Sync.Offsets

namespace TsAnalyzer.Pipeline

open Lib Sync List

variable {ρ : Type}

/-- `tsa_feed_data(h, data, len, n)`, with `data` at `addr` in the caller's memory. -/
def liveFeed (E : Engines ρ) (memory : Nat → UInt8) (addr len n : Nat) : Feed (World ρ) where
  bytes := (range len).map fun k => memory (addr + k)
  host := liveHost E addr n
  enter w := ⟨w.handle, ⟨memory, w.mem.syncBuffer⟩, [], []⟩
  given s := by simp [Host.window, liveHost]
  steady := ⟨fun _ => rfl, fun _ _ _ => rfl⟩

/-- What is left of the analyzer between two calls. -/
def Analyzer.of (q : Feeder × World ρ) : Analyzer ρ := ⟨q.1, q.2.handle, q.2.mem.syncBuffer⟩

/-- **A call of the analyzer is a call of the feed.** -/
theorem callStep_feedData (E : Engines ρ) (q : Feeder × World ρ) (memory : Nat → UInt8)
    (addr len n : Nat) :
    (callStep E (.of q) ⟨memory, .feedData addr len n⟩).map Prod.fst =
      (feedStep q (liveFeed E memory addr len n)).map fun r => .of r.1 := by
  have hlength : (liveFeed E memory addr len n).bytes.length = len := by simp [liveFeed]
  have hstep : feedStep q (liveFeed E memory addr len n) =
      (tsaFeedData (liveHost E addr n).record q.1
        ((liveFeed E memory addr len n).enter q.2, []) len).map
          fun r => ((r.1, r.2.1), r.2.2) := by
    rw [feedStep, hlength]
    rfl
  have hplain : _ = tsaFeedData (liveHost E addr n) q.1
      ⟨q.2.handle, ⟨memory, q.2.mem.syncBuffer⟩, [], []⟩ len := tsaFeedData_record ..
  simp only [callStep, Analyzer.of]
  rw [hstep, ← hplain]
  show _ = Except.map _ (Except.map _ (tsaFeedData (liveHost E addr n).record q.1
    (⟨q.2.handle, ⟨memory, q.2.mem.syncBuffer⟩, [], []⟩, []) len))
  cases tsaFeedData (liveHost E addr n).record q.1
      (⟨q.2.handle, ⟨memory, q.2.mem.syncBuffer⟩, [], []⟩, []) len with
  | error e => rfl
  | ok r => rfl

/-! ## Runs from `tsa_create` -/

/-- A new analyzer, with a caller whose memory is all zeros. -/
def World.fresh : World Unit :=
  ⟨(Analyzer.fresh ⟨"", 0, 0, false, false⟩ ()).handle, ⟨fun _ => 0, fun _ => 0⟩, [], []⟩

/-- A call on these bytes, with zeros behind them. -/
def liveCall (bytes : List UInt8) : Feed (World Unit) :=
  liveFeed Engines.idle (fun i => bytes.getD i 0) 0 bytes.length 0

def liveRun (cs : List (List UInt8)) :
    Except Fault ((Feeder × World Unit) × List FeedOut) :=
  runE feedStep (Feeder.fresh, World.fresh) (cs.map liveCall)

/-- A packet of PID 0x100. -/
def payloadPacket : List UInt8 := [0x47, 0x01, 0x00, 0x10] ++ replicate 184 0

/-- The packet in two pieces. -/
def twoPieces : List (List UInt8) := [payloadPacket.take 100, payloadPacket.drop 100]

/-- Five packets in two pieces each: the handle is LOCKED. -/
def lockingRun : List (List UInt8) := (replicate 5 twoPieces).flatten

-- Behind a packet taken in place, byte 200 of the chunk is counted up before the loop gets to it.
example : (liveRun lockingRun).toOption.map (fun r =>
    let c := liveCall (payloadPacket ++ replicate 12 0 ++ [0x46] ++ replicate 188 0)
    (c.seen r.1).getD 200 0) = some tsSyncByte := by
  decide +kernel

/-- One chunk of 189 bytes is enough: its last byte is written at offset 188. -/
theorem feed_overflow :
    (liveRun [replicate 189 tsSyncByte]).map Prod.snd = .error (.syncBufferOverflow 188 1) := by
  decide +kernel

/-- The two cuttings of one packet of sync bytes: one chunk, and 188 chunks of one byte. -/
theorem chunking_dependent :
    ¬ SameOutcome World.fresh [liveCall (replicate 188 tsSyncByte)]
      World.fresh (replicate 188 (liveCall [tsSyncByte])) := by
  -- in one piece the packet stays in the buffer, byte by byte it is counted and leaves it
  have hone : (liveRun [replicate 188 tsSyncByte]).toOption.map
      (·.1.1.syncBuffer.length) = some 188 := by decide +kernel
  have hbytes : (runE feedStep (Feeder.fresh, World.fresh)
      (replicate 188 (liveCall [tsSyncByte]))).toOption.map (·.1.1.syncBuffer.length) = some 0 := by
    decide +kernel
  rintro ⟨q, _, r, _, hq, hr, -, -, hsame⟩
  rw [liveRun, map_singleton, hq] at hone
  rw [hr] at hbytes
  have hfull : q.1.syncBuffer.length = 188 := Option.some.inj hone
  have hempty : r.1.syncBuffer.length = 0 := Option.some.inj hbytes
  rw [hsame, hempty] at hfull
  exact absurd hfull (by decide)

/-- Five packets in two pieces, and one taken in place. -/
theorem lockingRun_chunking : SameOutcome World.fresh
    ((lockingRun ++ [payloadPacket]).map liveCall)
    [] (bytewise (((lockingRun ++ [payloadPacket]).map liveCall).flatMap Feed.bytes)) :=
  (feed_chunking_iff World.fresh ((lockingRun ++ [payloadPacket]).map liveCall)
    (by decide +kernel)).mpr (by decide +kernel) _ (prefix_refl _) _ [] _ (bytewise_bytes _)
    (bytewise_smooth _)

/-- The same run: no byte goes uncounted, and the packet is delivered at its offset. -/
theorem lockingRun_placed : ∃ q out q' outs, liveRun lockingRun = .ok (q, out) ∧
    feedStep q (liveCall payloadPacket) = .ok (q', outs) ∧ packetsOf outs = [payloadPacket] ∧
    positions q (lockingRun.map liveCall) (liveCall payloadPacket) = [940] ∧
    offsetsOf outs = positions q (lockingRun.map liveCall) (liveCall payloadPacket) := by
  obtain ⟨⟨q, out⟩, hrun, hpos, hcall⟩ := exists_ok_and (x := liveRun lockingRun)
    (P := fun r => positions r.1 (lockingRun.map liveCall) (liveCall payloadPacket) = [940] ∧
      ((feedStep r.1 (liveCall payloadPacket)).toOption.any fun t =>
        packetsOf t.2 = [payloadPacket]) = true) (by decide +kernel)
  obtain ⟨⟨q', outs⟩, hcall, hpackets⟩ := exists_ok_and hcall
  refine ⟨q, out, q', outs, hrun, hcall, hpackets, hpos, (offsets_iff hrun hcall).2.mpr ?_⟩
  rw [hpos]
  decide +kernel

/-- The first of six packets in three pieces: the second of them is not counted, and the last packet
    is delivered ten bytes too early. -/
theorem uncounted_piece :
    let cs := [payloadPacket.take 100, (payloadPacket.drop 100).take 10, payloadPacket.drop 110] ++
      (replicate 4 twoPieces).flatten
    ∃ q out q' outs, liveRun cs = .ok (q, out) ∧
      feedStep q (liveCall payloadPacket) = .ok (q', outs) ∧ packetsOf outs = [payloadPacket] ∧
      positions q (cs.map liveCall) (liveCall payloadPacket) = [940] ∧ offsetsOf outs = [930] := by
  intro cs
  obtain ⟨⟨q, out⟩, hrun, hpos, hcall⟩ := exists_ok_and (x := liveRun cs)
    (P := fun r => positions r.1 (cs.map liveCall) (liveCall payloadPacket) = [940] ∧
      ((feedStep r.1 (liveCall payloadPacket)).toOption.any fun t =>
        packetsOf t.2 = [payloadPacket] ∧ offsetsOf t.2 = [930]) = true) (by decide +kernel)
  obtain ⟨⟨q', outs⟩, hcall, hpackets, hoffsets⟩ := exists_ok_and hcall
  exact ⟨q, out, q', outs, hrun, hcall, hpackets, hpos, hoffsets⟩

end TsAnalyzer.Pipeline
