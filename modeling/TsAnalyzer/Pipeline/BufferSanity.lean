/-
  T-STD sanity along a whole run of `tsa_process_packet`.

  One track at a time is `EsTrack.onTs_sane`.  Here a run delivers any packets, from any memory, at
  any times, to a fresh analyzer whose PIDs have any stream types; every packet touches the fills of
  its own PID only, so all tracks stay sane as long as no packet meets an overflowing gap
  (`Gentle`).  The step lemma is `processStep_sane`, the run lemma `buffers_sane`.
-/
import TsAnalyzer.Essence.TstdSanity
import TsAnalyzer.Pipeline.Spec

namespace TsAnalyzer.Pipeline

open Lib Alarm Essence Packet

variable {ρ : Type}

/-- A packet behind a pointer, the memory it lies in, and when it arrives. -/
structure Delivery where
  mem : Memory
  pkt : PacketPtr
  n : Nat

def Delivery.bytes (d : Delivery) : Nat → UInt8 := d.mem.byte d.pkt

def processStep (E : Engines ρ) (h : Handle ρ) (d : Delivery) : Handle ρ :=
  (tsaProcessPacket E h d.mem d.pkt d.n).handle

def Handle.freshTyped (config : AlertConfig) (rest : ρ) (types : Nat → UInt8) : Handle ρ :=
  { Handle.fresh config rest with
    tracks := fun pid => { EsTrack.fresh with streamType := types pid } }

/-- The packet does not reach the buffers of its PID, or finds them such that neither the leak of
    the gap nor the packet itself overflows. -/
def Gentle (E : Engines ρ) (h : Handle ρ) (d : Delivery) : Prop :=
  ∀ h' res, intake E h d.bytes d.n = .accepted h' res → res.pid ≠ 0x1FFF →
    ¬ (h'.found d.pkt res).Resets →
    (h'.tracks res.pid).FillOk (E.bitrates h'.rest res.pid) h'.alarms.stcNs

theorem Decoded.sane {h h' : Handle ρ} {p : Nat → UInt8} {ph : PesHeader} {res : DecodeResult}
    (d : Decoded h p ph h' res) (hs : ∀ pid, (h.tracks pid).Sane) (pid : Nat) :
    (h'.tracks pid).Sane := by
  obtain ⟨u, hu⟩ := d.track pid
  rw [hu]
  exact hs pid

theorem processStep_sane (E : Engines ρ) (h : Handle ρ) (d : Delivery)
    (hs : ∀ pid, (h.tracks pid).Sane) (hgentle : Gentle E h d) :
    ∀ pid, ((processStep E h d).tracks pid).Sane := by
  intro pid
  unfold processStep
  rcases tsaProcessPacket_cases E h d.mem d.pkt d.n with
    ⟨h', -, -, hsame, ho⟩ | ⟨ph, h', res, -, -, hdec, ho⟩ |
    ⟨ph, h', res, env, hin, -, hdec, hstc, hrates, hlatched, heff⟩
  · rw [ho, hsame.1]
    exact hs pid
  · rw [ho]
    exact hdec.sane hs pid
  · rw [heff.tracks]
    by_cases hpid : pid = res.pid
    · rw [hpid, Function.update_self]
      by_cases hnull : res.pid = 0x1FFF
      · rw [if_pos hnull]
        exact hdec.sane hs _
      · rw [if_neg hnull]
        refine EsTrack.onTs_sane (hdec.sane hs _) (fun hreset => ?_) d.pkt
        rw [hstc, hrates]
        refine hgentle h' res hin hnull ?_
        simpa [Found.Resets, Handle.found, hlatched] using hreset
    · rw [Function.update_of_ne hpid]
      exact hdec.sane hs pid

/-- **T-STD sanity**: in every run of gentle packets, after every packet, the fills of every PID are
    non-negative and EB holds at most its size. -/
theorem buffers_sane (E : Engines ρ) (config : AlertConfig) (rest : ρ) (types : Nat → UInt8)
    (ds : List Delivery)
    (hgentle : Along (Gentle E) (processStep E) (.freshTyped config rest types) ds) :
    ∀ pre, pre <+: ds → ∀ pid,
      let es := (pre.foldl (processStep E) (.freshTyped config rest types)).tracks pid
      es.tstd.Sane (ebSize es.streamType) := by
  intro pre hpre pid
  exact (along_inv (I := fun h : Handle ρ => ∀ pid, (h.tracks pid).Sane)
    (processStep_sane E) ds _ (fun pid => EsTrack.fresh_sane (types pid)) hgentle pre hpre pid).1

/-- A packet of PID 0x100 that arrives at `n`. -/
def deliverAt (n : Nat) : Delivery :=
  ⟨⟨fun i => [0x47, 0x01, 0x00, 0x10].getD i 0, fun _ => 0⟩, .caller 0, n⟩

/-- Packets a second apart are gentle. -/
theorem buffers_sane_after_second :
    let h := [deliverAt 1, deliverAt 1000000001].foldl (processStep Engines.idle)
      (.freshTyped ⟨"", 0, 0, false, false⟩ () fun _ => 0x1b)
    (h.tracks 0x100).tstd.Sane (ebSize (h.tracks 0x100).streamType) := by
  refine buffers_sane Engines.idle ⟨"", 0, 0, false, false⟩ () (fun _ => 0x1b)
    [deliverAt 1, deliverAt 1000000001] ⟨?_, ?_, trivial⟩ _ (List.prefix_refl _) 0x100
  · intro h' res hin _ _
    injection hin with hh hr
    subst hh hr
    exact ⟨fun h => absurd rfl h, by decide +kernel⟩
  · intro h' res hin _ _
    injection hin with hh hr
    subst hh hr
    exact ⟨fun _ _ => ⟨by decide +kernel, fun _ => by decide +kernel⟩, by decide +kernel⟩

/-- **A gap of 92 seconds is enough**: the second packet of an audio PID leaves EB with less than
    nothing. -/
theorem buffers_insane :
    (([deliverAt 1, deliverAt 92000000001].foldl (processStep Engines.idle)
      (.freshTyped ⟨"", 0, 0, false, false⟩ () fun _ => 0x0f)).tracks 0x100).tstd.ebFill < 0 := by
  decide +kernel

end TsAnalyzer.Pipeline
