/-
  The output at a constant rate: one packet a slot.

  A slot that is due writes a payload packet, a PCR packet or a null packet, 188 bytes each
  (`sentCore_writes`).  The one exception is a slot with nothing to send while the shaper DRAINS:
  it writes nothing and is counted all the same.  `in_drain` is never cleared, so this goes for
  every drive after a drain too.
-/
import TsAnalyzer.Shaper.Integrity

namespace TsAnalyzer.Shaper

open Lib

variable {μ : Type}

/-! ## Slots -/

/-- A slot that is due finds nothing to send while the shaper drains: no PCR is due, no table may
    go out, the scheduler picks no PID, and there is none for the fallback. -/
def Idles (s : Tsshaper μ) : Event → Prop
  | .slot => Due s.core ∧ s.core.inDrain = true ∧ NothingToSend s.core
  | _ => False

/-- A slot that is due writes one packet of 188 bytes. -/
def WritesOne (si : SiCallback μ) (s : Tsshaper μ) : Event → Prop
  | .slot => Due s.core → (written s.core (tssStepInternal si s.core)).map List.length = [188]
  | _ => True

instance (s : Tsshaper μ) : (e : Event) → Decidable (Idles s e)
  | .slot => inferInstanceAs (Decidable (_ ∧ _ ∧ _))
  | .enqueueDts .. | .enqueueTs .. | .enterDrive | .leaveDrive | .enterDrain | .resetTimeline =>
    isFalse id

theorem length_takePacket {p : PidState} (h : hasPacket p = true) :
    (takePacket p).1.length = 188 := by
  rw [takePacket_eq h]
  exact length_bytesAround ..

/-- **What an emission writes**: one packet, or nothing in an idle slot of a drain. -/
theorem sentCore_writes (c : Core μ) :
    ((sentCore c).out = c.out ∧ c.inDrain = true ∧ NothingToSend c) ∨
      (∃ x, (sentCore c).out = c.out ++ [x] ∧ x.pkt.length = 188) ∧
        ¬ (c.inDrain = true ∧ NothingToSend c) := by
  rw [← scheduled_null_iff]
  have hpacket : ∀ i, (scheduled c).2 = .payload i → hasPacket ((scheduled c).1.pids i) = true :=
    fun i => payload_hasPacket
  have hdrain : (scheduled c).1.inDrain = c.inDrain := rfl
  have hout : (scheduled c).1.out = c.out := rfl
  unfold sentCore
  generalize (scheduled c).1 = d, (scheduled c).2 = a at hpacket hdrain hout ⊢
  rw [← hdrain, ← hout]
  cases a with
  | null =>
    show ((emitNull d).out = d.out ∧ _) ∨ (∃ x, (emitNull d).out = _ ∧ _) ∧ _
    unfold emitNull
    split
    · rename_i hin
      exact .inl ⟨rfl, hin, rfl⟩
    · rename_i hin
      exact .inr ⟨⟨_, rfl, rfl⟩, fun h => hin h.1⟩
  | pcrOnly g => exact .inr ⟨⟨_, rfl, rfl⟩, by rintro ⟨-, ⟨⟩⟩⟩
  | payload i =>
    exact .inr ⟨⟨_, rfl, length_takePacket (hpacket i rfl)⟩, by rintro ⟨-, ⟨⟩⟩⟩

theorem writesOne_iff (si : SiCallback μ) (s : Tsshaper μ) (e : Event) :
    WritesOne si s e ↔ ¬ Idles s e := by
  cases e with
  | slot =>
    show (Due s.core → _) ↔ ¬ (Due s.core ∧ _ ∧ _)
    rcases sentCore_writes s.core with ⟨hout, hidle⟩ | ⟨⟨x, hout, hlen⟩, hbusy⟩
    · constructor
      · rintro hone ⟨hdue, -⟩
        have := hone hdue
        rw [written, slot_out si hdue, hout, List.drop_length] at this
        cases this
      · exact fun hbusy hdue => absurd ⟨hdue, hidle⟩ hbusy
    · refine iff_of_true (fun hdue => ?_) (fun hidle => hbusy hidle.2)
      rw [written, slot_out si hdue, hout, List.drop_left]
      exact congrArg (fun n => [n]) hlen
  | _ => exact iff_of_true trivial id

/-! ## Counting -/

def CountsWritten (c : Core μ) : Prop := c.clock.packetCount = c.out.length

theorem eventStep_count (si : SiCallback μ) (s : Tsshaper μ) (e : Event) (hbusy : ¬ Idles s e)
    (h : CountsWritten s.core) : CountsWritten (eventStep si s e).core := by
  unfold CountsWritten at h ⊢
  by_cases hslot : e = .slot → ¬ Due s.core
  · have hsame := eventStep_sameOutput si s hslot
    rw [hsame.count, hsame.out, h]
  · obtain ⟨rfl, hdue⟩ := Classical.not_imp.mp hslot
    have hdue := not_not.mp hdue
    obtain ⟨hcount, -, hout⟩ := slot_output si hdue
    rcases sentCore_writes s.core with ⟨-, hidle⟩ | ⟨⟨x, hsent, -⟩, -⟩
    · exact absurd ⟨hdue, hidle⟩ hbusy
    · show (tssStepInternal si s.core).clock.packetCount = (tssStepInternal si s.core).out.length
      rw [hcount, hout, hsent, List.length_append, List.length_singleton, h]
      rfl

/-- **The output has a constant rate exactly in the runs** without an idle slot of a drain: every
    slot that is due writes one packet of 188 bytes, and `packet_count` is the number of packets
    written all along. -/
theorem constant_rate_iff (si : SiCallback μ) (s : Tsshaper μ) (hs : SetUp s)
    (events : List Event) :
    (Along (WritesOne si) (eventStep si) s events ∧
        ∀ pre, pre <+: events → CountsWritten (pre.foldl (eventStep si) s).core) ↔
      Along (fun s e => ¬ Idles s e) (eventStep si) s events := by
  have hpointwise : Along (WritesOne si) (eventStep si) s events ↔
      Along (fun s e => ¬ Idles s e) (eventStep si) s events :=
    along_iff (I := fun _ => True) (fun _ _ _ => trivial) (fun t e _ => writesOne_iff si t e)
      events s trivial
  have hstart : CountsWritten s.core := by
    unfold CountsWritten
    rw [hs.clock, hs.out]
    rfl
  constructor
  · exact fun h => hpointwise.mp h.1
  · intro h
    refine ⟨hpointwise.mpr h, ?_⟩
    exact along_inv (I := fun t => CountsWritten t.core)
      (fun t e ht hbusy => eventStep_count si t e hbusy ht) events s hstart h

/-- Outside a drain there is no idle slot. -/
theorem twoPackets_constant :
    let s : Tsshaper Unit := ⟨Timeline.init, oneStream ⟨10000000, 35, 0, 0, 1⟩ 100⟩
    Along (WritesOne noTables) (eventStep noTables) s twoPackets ∧
      ∀ pre, pre <+: twoPackets → CountsWritten (pre.foldl (eventStep noTables) s).core :=
  (constant_rate_iff noTables _ (oneStream_setUp _ _) twoPackets).mpr (by decide +kernel)

/-- **A drain leaves slots empty.**  The clock of a shaper without media starts and is drained: the
    first slot sends the PCR, the second one nothing, and two packets are counted. -/
theorem drain_leavesEmpty :
    let s : Tsshaper Unit := ⟨Timeline.init, oneStream ⟨10000000, 35, 0, 0, 1⟩ 100⟩
    let t := [Event.enqueueDts 0 0 true, .enterDrain, .slot].foldl (eventStep noTables) s
    Due t.core ∧ written t.core (tssStepInternal noTables t.core) = [] ∧
      (tssStepInternal noTables t.core).clock.packetCount = 2 ∧
      (tssStepInternal noTables t.core).out.length = 1 := by
  decide +kernel

end TsAnalyzer.Shaper
