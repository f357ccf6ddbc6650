/-
  Who loses packets when one PID resyncs.

  Shedding, the end of `WAIT_IDR` and the watchdog leave the FIFOs of other PIDs alone, but the last
  two invalidate the epoch; the next key frame, of ANY stream, then anchors the timeline anew and
  flushes the FIFOs of ALL PIDs.
-/
import TsAnalyzer.Shaper.Integrity

namespace TsAnalyzer.Shaper

open Lib

variable {μ : Type}

/-! ## Programs -/

/-- `k` belongs to a program, and to none that `j` belongs to. -/
def OtherProgram (c : Core μ) (j k : Nat) : Prop :=
  k < c.layout.nbAllPids ∧ (∃ g, g < c.layout.nbPrograms ∧ k ∈ (c.programs g).pids) ∧
    ∀ g, g < c.layout.nbPrograms → k ∈ (c.programs g).pids → j ∉ (c.programs g).pids

instance (c : Core μ) (j k : Nat) : Decidable (OtherProgram c j k) :=
  inferInstanceAs (Decidable (_ ∧ (∃ g, g < _ ∧ _) ∧ ∀ g, g < _ → _ → _))

theorem OtherProgram.ne {c : Core μ} {j k : Nat} (h : OtherProgram c j k) : k ≠ j := by
  rintro rfl
  obtain ⟨-, ⟨g, hg, hk⟩, hnone⟩ := h
  exact hnone g hg hk hk

/-- Whatever packets are queued in `f` are queued in `g`, perhaps with newer ones behind them. -/
def KeepsQueue (f g : TssFifo) : Prop :=
  ∀ packets, f.Queues packets → ∃ new, g.Queues (packets ++ new)

theorem KeepsQueue.refl (f : TssFifo) : KeepsQueue f f := fun packets h =>
  ⟨[], by rw [List.append_nil]; exact h⟩

theorem KeepsQueue.size_le {f g : TssFifo} {packets : List (List UInt8)} (h : KeepsQueue f g)
    (hf : f.Queues packets) : f.size ≤ g.size := by
  obtain ⟨new, hg⟩ := h packets hf
  rw [hf.size, hg.size, List.length_append]
  exact Nat.mul_le_mul_left _ (Nat.le_add_right _ _)

theorem keepsQueue_flush_iff {f : TssFifo} {packets : List (List UInt8)} (h : f.Queues packets) :
    KeepsQueue f (f.drain f.size) ↔ f.size = 0 := by
  constructor
  · intro hkeeps
    have hle := hkeeps.size_le h
    rw [h.emptied.size] at hle
    exact Nat.le_zero.mp hle
  · intro hsize qs hqs
    have hnil : qs = [] := by
      have hlen := hqs.size
      unfold tsPacketSize at hlen
      exact List.length_eq_zero_iff.mp (by omega)
    exact ⟨[], by rw [hnil]; exact hqs.emptied⟩

/-! ## Blame -/

/-- The PIDs whose watchdog invalidates the epoch while packets are handed over. -/
def watchdogs : Core μ → List (Nat × Packet) → List Nat
  | _, [] => []
  | c, (pidNum, pkt) :: pkts =>
    ((c.layout.pidMap pidNum).filter fun i =>
      (tssInternalEnqueuePacket c.clock.vStc (c.pids i) pkt).2).toList ++
      watchdogs (tsshaperEnqueueTs c pidNum pkt) pkts

/-- The PIDs that invalidate the epoch in an event: by their watchdog, also when the muxer hands
    over tables in a slot, or because a frame ends their `WAIT_IDR`. -/
def invalidators (si : SiCallback μ) (s : Tsshaper μ) : Event → List Nat
  | .enqueueDts pidNum dts isKey => (tssGetState s.core pidNum).toList.filter fun i =>
    dts ≠ noptsValue ∧ (noteFrame s i isKey).2 = true ∧ (s.core.pids i).state = .waitIdr
  | .enqueueTs pidNum pkt => watchdogs s.core [(pidNum, pkt)]
  | .slot =>
    if Due s.core then
      let c := tablesCore s.core
      let d := retransmitPat si c
      (if c.clock.vStc - c.nextPatTs ≥ c.layout.patPeriod then
        watchdogs c (si c.muxer true false c.clock.vStc).2 else []) ++
      if d.clock.vStc - d.nextSdtTs ≥ d.layout.sdtPeriod then
        watchdogs d (si d.muxer false true d.clock.vStc).2 else []
    else []
  | _ => []

/-- The shaper, with the PIDs to blame for an invalid epoch. -/
structure Watched (μ : Type) where
  shaper : Tsshaper μ
  blamed : List Nat

/-- The event anchors the timeline anew, on running clocks. -/
def Reanchored (s : Tsshaper μ) : Event → Prop
  | .enqueueDts pidNum dts isKey => ∃ j, ReanchorsAt s pidNum dts isKey j
  | _ => False

instance (s : Tsshaper μ) : (e : Event) → Decidable (Reanchored s e)
  | .enqueueDts pidNum dts isKey =>
    inferInstanceAs (Decidable (∃ j, ReanchorsAt s pidNum dts isKey j))
  | .enqueueTs .. | .enterDrive | .slot | .leaveDrive | .enterDrain | .resetTimeline => isFalse id

def watchedStep (si : SiCallback μ) (w : Watched μ) (e : Event) : Watched μ where
  shaper := eventStep si w.shaper e
  blamed := if Reanchored w.shaper e then [] else w.blamed ++ invalidators si w.shaper e

/-- The PIDs that trigger what a call of the input path does. -/
def triggers (w : Watched μ) : Event → List Nat
  | .enqueueDts pidNum _ _ => w.blamed ++ (tssGetState w.shaper.core pidNum).toList
  | .enqueueTs pidNum _ => (w.shaper.core.layout.pidMap pidNum).toList
  | _ => []

/-! ## Isolation -/

/-- No packet is taken from a PID of another program than a trigger's. -/
def Isolated (si : SiCallback μ) (w : Watched μ) (e : Event) : Prop :=
  ∀ j ∈ triggers w e, ∀ k, OtherProgram w.shaper.core j k →
    KeepsQueue (w.shaper.core.pids k).tsFifo ((eventStep si w.shaper e).core.pids k).tsFifo

/-- A new anchor finds the FIFOs of other programs than a trigger's empty. -/
def SparesOthers (w : Watched μ) (e : Event) : Prop :=
  Reanchored w.shaper e → ∀ j ∈ triggers w e, ∀ k, k < w.shaper.core.layout.nbAllPids →
    OtherProgram w.shaper.core j k → (w.shaper.core.pids k).tsFifo.size = 0

instance (w : Watched μ) (e : Event) : Decidable (SparesOthers w e) :=
  inferInstanceAs (Decidable (_ → ∀ j ∈ _, ∀ k, k < _ → _ → _))

theorem enqueueDts_fifo (s : Tsshaper μ) (pidNum : Nat) (dts : Int) (isKey : Bool) {k : Nat}
    (hk : k < s.core.layout.nbAllPids) :
    ((tsshaperEnqueueDts s pidNum dts isKey).core.pids k).tsFifo =
      if ∃ j, ReanchorsAt s pidNum dts isKey j then
        (s.core.pids k).tsFifo.drain (s.core.pids k).tsFifo.size
      else (s.core.pids k).tsFifo := by
  have hkept := congrArg Books.tsFifo (enqueueDts_kept s pidNum dts isKey hk).2
  show (PidState.books _).tsFifo = _
  rw [← hkept]
  unfold dtsActs
  split <;> split <;> rfl

theorem enqueueTs_fifo (c : Core μ) (pidNum : Nat) (pkt : Packet) {k : Nat}
    (hk : c.layout.pidMap pidNum ≠ some k) :
    ((tsshaperEnqueueTs c pidNum pkt).pids k).tsFifo = (c.pids k).tsFifo := by
  have hkept := congrArg Books.tsFifo (enqueueTs_kept c pidNum pkt k).2
  rw [if_neg hk] at hkept
  exact hkept.symm

/-- **One event** is isolated exactly if it spares the others. -/
theorem isolated_iff (si : SiCallback μ) (w : Watched μ) (e : Event)
    (hqueued : AllQueued w.shaper.core) : Isolated si w e ↔ SparesOthers w e := by
  cases e with
  | enqueueDts pidNum dts isKey =>
    have hfifo := fun k hk => enqueueDts_fifo w.shaper pidNum dts isKey (k := k) hk
    by_cases hanchor : ∃ j, ReanchorsAt w.shaper pidNum dts isKey j
    · -- every FIFO is flushed: each queue in question is kept exactly if it is empty
      have hkeeps : ∀ k, k < w.shaper.core.layout.nbAllPids →
          (KeepsQueue (w.shaper.core.pids k).tsFifo
            ((eventStep si w.shaper (.enqueueDts pidNum dts isKey)).core.pids k).tsFifo ↔
            (w.shaper.core.pids k).tsFifo.size = 0) := by
        intro k hk
        obtain ⟨packets, hq⟩ := hqueued k hk
        rw [show ((eventStep si w.shaper (.enqueueDts pidNum dts isKey)).core.pids k).tsFifo = _
          from hfifo k hk, if_pos hanchor]
        exact keepsQueue_flush_iff hq.queues
      constructor
      · exact fun h _ j hj k hk hother => (hkeeps k hk).mp (h j hj k hother)
      · exact fun h j hj k hother => (hkeeps k hother.1).mpr (h hanchor j hj k hother.1 hother)
    · refine iff_of_true (fun j _ k hother => ?_) (fun h => absurd h hanchor)
      rw [show ((eventStep si w.shaper (.enqueueDts pidNum dts isKey)).core.pids k).tsFifo = _
        from hfifo k hother.1, if_neg hanchor]
      exact .refl _
  | enqueueTs pidNum pkt =>
    refine iff_of_true (fun j hj k hother => ?_) (fun h => absurd h id)
    have hmap : w.shaper.core.layout.pidMap pidNum = some j := Option.mem_toList.mp hj
    have hne : w.shaper.core.layout.pidMap pidNum ≠ some k := by
      rw [hmap]
      exact fun h => hother.ne (Option.some.inj h).symm
    rw [show ((eventStep si w.shaper (.enqueueTs pidNum pkt)).core.pids k).tsFifo = _
      from enqueueTs_fifo w.shaper.core pidNum pkt hne]
    exact .refl _
  | _ => exact iff_of_true (fun j hj => absurd hj List.not_mem_nil) (fun h => absurd h id)

/-- **A resync is isolated exactly in the runs** in which every new anchor finds the FIFOs of the
    programs that its triggers do not belong to empty. -/
theorem resync_isolated_iff (si : SiCallback μ) (s : Tsshaper μ) (hs : SetUp s)
    (events : List Event) :
    Along (Isolated si) (watchedStep si) ⟨s, []⟩ events ↔
      Along SparesOthers (watchedStep si) ⟨s, []⟩ events :=
  along_iff (I := fun w => AllQueued w.shaper.core) (fun _ e h => h.step si e)
    (fun w e h => isolated_iff si w e h) events ⟨s, []⟩ fun _ hi => ⟨[], hs.queued hi⟩

theorem allQueued_watched (si : SiCallback μ) {s : Tsshaper μ} (hs : SetUp s)
    (events : List Event) : AllQueued (events.foldl (watchedStep si) ⟨s, []⟩).shaper.core :=
  along_inv (R := fun _ _ => True) (I := fun w : Watched μ => AllQueued w.shaper.core)
    (fun _ e h _ => h.step si e) events ⟨s, []⟩ (fun _ hi => ⟨[], hs.queued hi⟩)
    (along_true _ _ _) events (List.prefix_refl _)

theorem not_isolated {si : SiCallback μ} {w : Watched μ} {e : Event} {j k : Nat}
    (hqueued : AllQueued w.shaper.core) (hj : j ∈ triggers w e)
    (hother : OtherProgram w.shaper.core j k)
    (hless : ((eventStep si w.shaper e).core.pids k).tsFifo.size <
      (w.shaper.core.pids k).tsFifo.size) : ¬ Isolated si w e := by
  intro hisolated
  obtain ⟨packets, hq⟩ := hqueued k hother.1
  have hle := (hisolated j hj k hother).size_le hq.queues
  exact absurd hless (Nat.not_lt.mpr hle)

/-! ## Two programs -/

/-- Two programs with one video PID each: 0x100 of stream 0, and 0x101 of stream 1. -/
def twoVideos : Core Unit :=
  let c := oneStream ⟨10000000, 35, 0, 0, 2⟩ 100
  { c with
    layout :=
      { c.layout with
        nbAllPids := 2
        nbPrograms := 2
        pidMap := fun n => if n = 0x100 then some 0 else if n = 0x101 then some 1 else none
        streamIndexToPid := fun n => if n = 0 then some 0 else if n = 1 then some 1 else none
        streamIndexToPid_lt := by
          intro n i h
          split at h
          · cases h
            decide
          · split at h
            · cases h
              decide
            · cases h }
    programs := fun g => { c.programs g with pids := [g], pcrPid := 0x100 + g, pcrPidState := g }
    pids := fun i => newPid c.cfg (0x100 + i) .video 4000000 }

theorem twoVideos_setUp : SetUp (⟨Timeline.init, twoVideos⟩ : Tsshaper Unit) :=
  ⟨rfl, rfl, rfl, rfl, rfl, fun _ _ => ⟨_, _, _, rfl⟩⟩

/-- Stream 0 anchors the timeline anew, while only its own FIFO holds a packet. -/
theorem ownPacket_isolated :
    Along (Isolated noTables) (watchedStep noTables) ⟨⟨Timeline.init, twoVideos⟩, []⟩
      [.resetTimeline, .enqueueDts 0 0 true, .enqueueTs 0x100 (mediaPacket 0),
        .enqueueDts 0 0 true] :=
  (resync_isolated_iff noTables _ twoVideos_setUp _).mpr (by decide +kernel)

/-- **Stream 0 flushes the packet of stream 1**, which belongs to the other program. -/
theorem otherPacket_flushed :
    let w := [Event.resetTimeline, .enqueueDts 0 0 true, .enqueueTs 0x101 (mediaPacket 0)].foldl
      (watchedStep noTables) ⟨⟨Timeline.init, twoVideos⟩, []⟩
    let t := eventStep noTables w.shaper (.enqueueDts 0 0 true)
    0 ∈ triggers w (.enqueueDts 0 0 true) ∧ OtherProgram w.shaper.core 0 1 ∧
      (w.shaper.core.pids 1).tsFifo.size = 188 ∧ (t.core.pids 1).tsFifo.size = 0 ∧
      ¬ Isolated noTables w (.enqueueDts 0 0 true) := by
  intro w t
  have htrigger : 0 ∈ triggers w (.enqueueDts 0 0 true) := by decide +kernel
  have hother : OtherProgram w.shaper.core 0 1 := by decide +kernel
  have hbefore : (w.shaper.core.pids 1).tsFifo.size = 188 := by decide +kernel
  have hafter : (t.core.pids 1).tsFifo.size = 0 := by decide +kernel
  have hless : (t.core.pids 1).tsFifo.size < (w.shaper.core.pids 1).tsFifo.size := by
    rw [hbefore, hafter]
    decide
  exact ⟨htrigger, hother, hbefore, hafter,
    not_isolated (allQueued_watched noTables twoVideos_setUp _) htrigger hother hless⟩

end TsAnalyzer.Shaper
