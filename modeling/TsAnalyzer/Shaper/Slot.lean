/-
  What a slot can do: the two rules that every result about the output path of the shaper goes by.

  The loops of a drive and of a drain are runs of slots (`driveLoop_slots`, `drainLoop_slots`).
-/
import TsAnalyzer.Shaper.Step

namespace TsAnalyzer.Shaper

variable {μ : Type}

/-! ## Bookkeeping beside the clock, the programs and the output -/

/-- `b` agrees with `a` on the configuration, the clock, the programs and the output. -/
structure Beside (a b : Core μ) : Prop where
  cfg : b.cfg = a.cfg
  layout : b.layout = a.layout
  clock : b.clock = a.clock
  programs : b.programs = a.programs
  pending : b.pendingDiscontinuity = a.pendingDiscontinuity
  out : b.out = a.out

variable (si : SiCallback μ) (c : Core μ)

theorem Beside.refl : Beside c c := ⟨rfl, rfl, rfl, rfl, rfl, rfl⟩

theorem Beside.trans {a b c : Core μ} (h : Beside a b) (h' : Beside b c) : Beside a c :=
  ⟨h'.cfg.trans h.cfg, h'.layout.trans h.layout, h'.clock.trans h.clock,
    h'.programs.trans h.programs, h'.pending.trans h.pending, h'.out.trans h.out⟩

theorem tsshaperEnqueueTs_beside (pidNum : Nat) (pkt : Packet) :
    Beside c (tsshaperEnqueueTs c pidNum pkt) := by
  unfold tsshaperEnqueueTs
  split
  · exact .refl c
  · exact ⟨rfl, rfl, rfl, rfl, rfl, rfl⟩

theorem enqueueAll_beside (pkts : List (Nat × Packet)) :
    ∀ c : Core μ, Beside c (enqueueAll c pkts) := by
  induction pkts with
  | nil => exact .refl
  | cons p pkts ih => exact fun c => (tsshaperEnqueueTs_beside c p.1 p.2).trans (ih _)

theorem retransmit_beside (forcePat forceSdt : Bool) (c : Core μ) :
    Beside c (retransmit si forcePat forceSdt c) := by
  have h := enqueueAll_beside (si c.muxer forcePat forceSdt c.clock.vStc).2
    { c with muxer := (si c.muxer forcePat forceSdt c.clock.vStc).1 }
  exact ⟨h.cfg, h.layout, h.clock, h.programs, h.pending, h.out⟩

theorem tables_beside : Beside c (retransmitSdt si (retransmitPat si c)) := by
  have hpat : Beside c (retransmitPat si c) := by
    have h := retransmit_beside si true false c
    unfold retransmitPat
    split
    · exact ⟨h.cfg, h.layout, h.clock, h.programs, h.pending, h.out⟩
    · exact .refl c
  refine hpat.trans ?_
  have h := retransmit_beside si false true (retransmitPat si c)
  unfold retransmitSdt
  split
  · exact ⟨h.cfg, h.layout, h.clock, h.programs, h.pending, h.out⟩
  · exact .refl _

theorem tssAccountMetrology_beside : Beside c (tssAccountMetrology c) := by
  unfold tssAccountMetrology
  dsimp only
  split
  · split
    · exact ⟨rfl, rfl, rfl, rfl, rfl, rfl⟩
    · split <;> exact ⟨rfl, rfl, rfl, rfl, rfl, rfl⟩
  · split <;> exact ⟨rfl, rfl, rfl, rfl, rfl, rfl⟩

theorem mapPids_beside (f : PidState → PidState) : Beside c (c.mapPids f) :=
  ⟨rfl, rfl, rfl, rfl, rfl, rfl⟩

theorem tssRefillTokensFlywheel_beside :
    Beside { c with clock := { c.clock with lastRefillPhysicalStc := c.clock.physicalStc } }
      (tssRefillTokensFlywheel c) := by
  unfold tssRefillTokensFlywheel
  dsimp only
  split
  · exact .refl _
  · rename_i hset
    split
    · exact ⟨rfl, rfl, rfl, rfl, rfl, rfl⟩
    · -- no time has passed: the clock is up to date already
      have hclock : c.clock.lastRefillPhysicalStc = c.clock.physicalStc := by omega
      refine ⟨rfl, rfl, ?_, rfl, rfl, rfl⟩
      show c.clock = { c.clock with lastRefillPhysicalStc := c.clock.physicalStc }
      rw [← hclock]

def Clock.nextSlot (k : Clock) (cfg : Config) (physical : Int) : Clock :=
  { k with
    physicalStc := physical
    lastRefillPhysicalStc := physical
    nextSlotStc := physical + cfg.ticksPerPacket
    packetCount := k.packetCount + 1 }

/-- **After the emission** nothing but the clocks moves, beside the PIDs. -/
theorem postEmission_beside (next : Int) :
    Beside { c with clock := c.clock.nextSlot c.cfg next } (postEmission si c next) := by
  have hrefill := tssRefillTokensFlywheel_beside
    { c with clock := { c.clock with physicalStc := next } }
  generalize hr :
    tssRefillTokensFlywheel { c with clock := { c.clock with physicalStc := next } } = r
    at hrefill
  have hclose : Beside { c with clock := c.clock.nextSlot c.cfg next } (closeSlot r) := by
    refine ⟨hrefill.cfg, hrefill.layout, ?_, hrefill.programs, hrefill.pending, hrefill.out⟩
    show { r.clock with
      nextSlotStc := r.clock.physicalStc + r.cfg.ticksPerPacket
      packetCount := r.clock.packetCount + 1 } = _
    rw [hrefill.clock, hrefill.cfg]
    rfl
  unfold postEmission
  rw [hr]
  exact hclose.trans ((mapPids_beside _ _).trans ((tables_beside si _).trans
    ((mapPids_beside _ _).trans (tssAccountMetrology_beside _))))

theorem scheduled_beside : Beside { c with clock := advanceStc c.cfg c.clock } (scheduled c).1 :=
  ⟨rfl, rfl, rfl, rfl, rfl, rfl⟩

theorem emit_layout (a : Action) : (emit c a).layout = c.layout := by
  cases a with
  | null => show (emitNull c).layout = _; unfold emitNull; split <;> rfl
  | pcrOnly | payload => rfl

theorem emit_clock (a : Action) : (emit c a).cfg = c.cfg ∧ (emit c a).clock = c.clock := by
  cases a with
  | null =>
    show (emitNull c).cfg = _ ∧ (emitNull c).clock = _
    unfold emitNull
    split <;> exact ⟨rfl, rfl⟩
  | pcrOnly | payload => exact ⟨rfl, rfl⟩

theorem tssStepInternal_layout : (tssStepInternal si c).layout = c.layout := by
  unfold tssStepInternal
  split
  · rfl
  · exact (postEmission_beside si _ _).layout.trans
      ((emit_layout _ _).trans (scheduled_beside c).layout)

/-! ## Runs of slots -/

theorem driveLoop_slots (target : Int) (steps : Nat) (c : Core μ) :
    ∃ n, driveLoop si target steps c = (tssStepInternal si)^[n] c := by
  induction steps generalizing c with
  | zero => exact ⟨0, rfl⟩
  | succ steps ih =>
    unfold driveLoop
    split
    · obtain ⟨n, hn⟩ := ih (tssStepInternal si c)
      exact ⟨n + 1, hn⟩
    · exact ⟨0, rfl⟩

theorem drainLoop_slots (start : Int) (fuel : Nat) (c : Core μ) :
    ∃ n, drainLoop si start fuel c = (tssStepInternal si)^[n] c := by
  induction fuel generalizing c with
  | zero => exact ⟨0, rfl⟩
  | succ fuel ih =>
    unfold drainLoop
    split
    · exact ⟨0, rfl⟩
    · split
      · obtain ⟨n, hn⟩ := ih (tssStepInternal si c)
        exact ⟨n + 1, hn⟩
      · exact ⟨0, rfl⟩

/-! ## The PID table through a slot -/

/-- `R` holds between the old and the new state of every PID. -/
def Across (R : PidState → PidState → Prop) (a b : Nat → PidState) : Prop := ∀ i, R (a i) (b i)

/-- `R` is a preorder. -/
structure Chain (R : PidState → PidState → Prop) : Prop where
  refl : ∀ p, R p p
  trans : ∀ {p q r}, R p q → R q r → R p r

/-- `R` is a preorder, and every elementary update of a slot moves a PID along it. -/
structure SlotStable (R : PidState → PidState → Prop) : Prop where
  refl : ∀ p, R p p
  trans : ∀ {p q r}, R p q → R q r → R p r
  enqueue : ∀ vStc p pkt, R p (tssInternalEnqueuePacket vStc p pkt).1
  leak : ∀ delta p, R p (leakPid delta p)
  pacing : ∀ p integral tokens, R p { p with piIntegral := integral, pacingTokens := tokens }
  deadline : ∀ p slack urgent, R p { p with telSecSlackMin27m := slack, isUrgent := urgent }
  window : ∀ p sum n start, R p { p with
    secSumWindowInBps := sum, secNumWindows := n, windowStartAcceptBytes := start }
  charge : ∀ p, R p (chargePid p)
  take : ∀ p, R p (takePacket p).2
  fullness : ∀ p level, R p { p with continuousFullnessBits := level }
  burst : ∀ p n, R p { p with burstCount := n }
  refill : ∀ delta p, R p (refillPid delta p)
  panic : ∀ p, R p (panicPid p)
  decode : ∀ vStc p, R p (decodePid vStc p)
  measure : ∀ p, R p (measurePid p)

/-- The scheduler's walk moves a PID along `R`. -/
structure WalkStable (R : PidState → PidState → Prop) : Prop extends Chain R where
  pacing : ∀ p integral tokens, R p { p with piIntegral := integral, pacingTokens := tokens }
  deadline : ∀ p slack urgent, R p { p with telSecSlackMin27m := slack, isUrgent := urgent }

/-- What follows the refill moves a PID along `R`. -/
structure AfterStable (R : PidState → PidState → Prop) : Prop extends Chain R where
  enqueue : ∀ vStc p pkt, R p (tssInternalEnqueuePacket vStc p pkt).1
  panic : ∀ p, R p (panicPid p)
  decode : ∀ vStc p, R p (decodePid vStc p)
  measure : ∀ p, R p (measurePid p)

/-- Everything a slot does to a PID moves it along `R`, except the three operations on its buckets:
    leak, charge and refill.  Of these the charge may stand anywhere in an emission. -/
structure FrameStable (R : PidState → PidState → Prop) : Prop
    extends WalkStable R, AfterStable R where
  window : ∀ p sum n start, R p { p with
    secSumWindowInBps := sum, secNumWindows := n, windowStartAcceptBytes := start }
  take : ∀ p, R p (takePacket p).2
  fullness : ∀ p level, R p { p with continuousFullnessBits := level }
  burst : ∀ p n, R p { p with burstCount := n }
  charge : ∀ {p q}, R p q → R (chargePid p) (chargePid q)

/-- The bookkeeping of a slot moves a PID along `R`: every update of its fields, those of the
    buckets apart. -/
structure UpkeepStable (R : PidState → PidState → Prop) : Prop extends Chain R where
  receive : ∀ p n, R p { p with rxBytesTotal := n }
  wait : ∀ p stc, R p { p with waitIdrStartStc := stc }
  resume : ∀ p, R p { p with
    state := .normal, waitIdrStartStc := 0, needResync := true, needsDiscontinuity := true }
  shed : ∀ p stc, R p { p with state := .waitIdr, waitIdrStartStc := stc, needResync := true }
  store : ∀ p fifo accepted dropped flag, R p { p with
    tsFifo := fifo, fifoAcceptBytes := accepted, dropBytesTotal := dropped
    needsDiscontinuity := flag }
  take : ∀ p fifo cc, R p { p with tsFifo := fifo, cc := cc }
  panic : ∀ p on, R p { p with isPanicMode := on }
  decode : ∀ p level units, R p { p with bufferLevelBits := level, auEvents := units }
  measure : ∀ p accepted display sum n ema count slack, R p { p with
    last1sAcceptBytes := accepted, lastDisplayInBps := display, secSumWindowInBps := sum
    secNumWindows := n, telInputEmaBps := ema, telAvgCount := count, telSecSlackMin27m := slack }
  pacing : ∀ p integral tokens, R p { p with piIntegral := integral, pacingTokens := tokens }
  deadline : ∀ p slack urgent, R p { p with telSecSlackMin27m := slack, isUrgent := urgent }
  window : ∀ p sum n start, R p { p with
    secSumWindowInBps := sum, secNumWindows := n, windowStartAcceptBytes := start }
  fullness : ∀ p level, R p { p with continuousFullnessBits := level }
  burst : ∀ p n, R p { p with burstCount := n }

section Stable

variable {R : PidState → PidState → Prop}

theorem UpkeepStable.waitForIdr (hR : UpkeepStable R) (vStc : Int) (p : PidState) (isPcr : Bool) :
    R p (waitForIdr vStc p isPcr).1 := by
  unfold Shaper.waitForIdr
  split
  · split
    · exact hR.wait p vStc
    · split
      · exact hR.resume p
      · exact hR.refl p
  · exact hR.refl p

theorem UpkeepStable.sheds (hR : UpkeepStable R) (vStc : Int) (p : PidState)
    (isPcr isPusi : Bool) : R p (Shaper.shed vStc p isPcr isPusi).1 := by
  unfold Shaper.shed
  split
  · split
    · split
      · exact hR.shed p vStc
      · exact hR.refl p
    · exact hR.refl p
    · exact hR.refl p
  · exact hR.refl p

theorem UpkeepStable.storePacket (hR : UpkeepStable R) (p : PidState) (pkt : Packet)
    (drop : Bool) : R p (storePacket p pkt drop) := by
  unfold Shaper.storePacket
  split
  · exact hR.store p _ _ p.dropBytesTotal p.needsDiscontinuity
  · exact hR.store p _ p.fifoAcceptBytes _ _

theorem UpkeepStable.enqueue (hR : UpkeepStable R) (vStc : Int) (p : PidState) (pkt : Packet) :
    R p (tssInternalEnqueuePacket vStc p pkt).1 := by
  have hwait := hR.trans (hR.receive p (p.rxBytesTotal + tsPacketSize))
    (hR.waitForIdr vStc _ (carriesPcr pkt))
  unfold tssInternalEnqueuePacket
  dsimp only
  split
  · exact hR.trans hwait (hR.storePacket _ pkt _)
  · exact hR.trans hwait (hR.trans (hR.sheds vStc _ _ _) (hR.storePacket _ pkt _))

theorem UpkeepStable.takePacket (hR : UpkeepStable R) (p : PidState) : R p (takePacket p).2 := by
  unfold Shaper.takePacket
  split
  · exact hR.refl p
  · exact hR.take p _ _

theorem UpkeepStable.panicPid (hR : UpkeepStable R) (p : PidState) : R p (panicPid p) := by
  unfold Shaper.panicPid
  split
  · split
    · exact hR.panic p true
    · split
      · exact hR.panic p false
      · exact hR.refl p
  · exact hR.refl p

theorem UpkeepStable.decodePid (hR : UpkeepStable R) (vStc : Int) (p : PidState) :
    R p (decodePid vStc p) := by
  unfold Shaper.decodePid
  split
  · exact hR.refl p
  · exact hR.decode p _ _

theorem UpkeepStable.measurePid (hR : UpkeepStable R) (p : PidState) : R p (measurePid p) := by
  unfold Shaper.measurePid
  dsimp only
  split
  · split
    · exact hR.measure p _ _ _ _ _ _ _
    · exact hR.measure p _ _ _ _ p.telInputEmaBps p.telAvgCount _
  · exact hR.measure p p.last1sAcceptBytes p.lastDisplayInBps p.secSumWindowInBps p.secNumWindows
      p.telInputEmaBps p.telAvgCount _

/-- With its buckets, a slot moves a PID along `R`. -/
theorem UpkeepStable.slot (hR : UpkeepStable R) (hleak : ∀ delta p, R p (leakPid delta p))
    (hcharge : ∀ p, R p (chargePid p)) (hrefill : ∀ delta p, R p (refillPid delta p)) :
    SlotStable R where
  refl := hR.refl
  trans := hR.trans
  enqueue := hR.enqueue
  leak := hleak
  pacing := hR.pacing
  deadline := hR.deadline
  window := hR.window
  charge := hcharge
  take := hR.takePacket
  fullness := hR.fullness
  burst := hR.burst
  refill := hrefill
  panic := hR.panicPid
  decode := hR.decodePid
  measure := hR.measurePid

theorem UpkeepStable.frame (hR : UpkeepStable R)
    (hcharge : ∀ {p q}, R p q → R (chargePid p) (chargePid q)) : FrameStable R where
  refl := hR.refl
  trans := hR.trans
  enqueue := hR.enqueue
  pacing := hR.pacing
  deadline := hR.deadline
  window := hR.window
  take := hR.takePacket
  fullness := hR.fullness
  burst := hR.burst
  charge := hcharge
  panic := hR.panicPid
  decode := hR.decodePid
  measure := hR.measurePid

theorem SlotStable.walk (hR : SlotStable R) : WalkStable R :=
  ⟨⟨hR.refl, hR.trans⟩, hR.pacing, hR.deadline⟩

theorem SlotStable.after (hR : SlotStable R) : AfterStable R :=
  ⟨⟨hR.refl, hR.trans⟩, hR.enqueue, hR.panic, hR.decode, hR.measure⟩

theorem SlotStable.chain (hR : SlotStable R) : Chain R := hR.walk.toChain

theorem Chain.across (hR : Chain R) (a : Nat → PidState) : Across R a a := fun i => hR.refl (a i)

theorem Across.trans (hR : Chain R) {a b c : Nat → PidState} (h : Across R a b)
    (h' : Across R b c) : Across R a c := fun i => hR.trans (h i) (h' i)

theorem updPid_across (hR : Chain R) (a : Nat → PidState) (i : Nat) (f : PidState → PidState)
    (hf : R (a i) (f (a i))) : Across R a (updPid a i f) := by
  intro k
  unfold updPid
  split
  · rename_i hk
    rw [hk]
    exact hf
  · exact hR.refl _

theorem mapPids_across (hR : Chain R) (n : Nat) (a : Nat → PidState)
    {f : PidState → PidState} (hf : ∀ p, R p (f p)) : Across R a (mapPids n a f) := by
  intro k
  unfold mapPids
  split
  · exact hf _
  · exact hR.refl _

theorem updPids_across (hR : Chain R) {f : PidState → PidState} (hf : ∀ p, R p (f p))
    (is : List Nat) : ∀ a : Nat → PidState, Across R a (is.foldl (fun t i => updPid t i f) a) := by
  induction is with
  | nil => exact hR.across
  | cons i is ih => exact fun a => (updPid_across hR a i f (hf _)).trans hR (ih _)

theorem enqueueTs_across (hR : AfterStable R) (c : Core μ) (pidNum : Nat) (pkt : Packet) :
    Across R c.pids (tsshaperEnqueueTs c pidNum pkt).pids := by
  unfold tsshaperEnqueueTs
  split
  · exact hR.across _
  · rename_i i _
    exact updPid_across hR.toChain c.pids i (fun _ => _) (hR.enqueue _ _ _)

theorem enqueueAll_across (hR : AfterStable R) (pkts : List (Nat × Packet)) :
    ∀ c : Core μ, Across R c.pids (enqueueAll c pkts).pids := by
  induction pkts with
  | nil => exact fun c => hR.across _
  | cons p pkts ih => exact fun c => (enqueueTs_across hR c p.1 p.2).trans hR.toChain (ih _)

/-! ### The scheduler's walk -/

theorem deadlineOf_stable (hR : WalkStable R) (c : Core μ) (p : PidState) (ratio : Int) :
    R p (deadlineOf c p ratio).1 := by
  unfold deadlineOf
  dsimp only
  split
  · exact hR.deadline p _ _
  · exact hR.deadline p p.telSecSlackMin27m false

theorem pacePid_stable (hR : WalkStable R) (cfg : Config) (p : PidState) :
    R p (pacePid cfg p).1 := by
  unfold pacePid
  split
  · exact hR.pacing p _ _
  · exact hR.refl p

theorem resetPace_stable (hR : WalkStable R) (p : PidState) : R p (resetPace p) := by
  unfold resetPace
  split
  · exact hR.pacing p _ _
  · exact hR.refl p

theorem drainPace_stable (hR : WalkStable R) (inDrain : Bool) (p : PidState) :
    R p (drainPace inDrain p) := by
  unfold drainPace
  split
  · exact hR.pacing p p.piIntegral _
  · exact hR.refl p

theorem considerPid_stable (hR : WalkStable R) (c : Core μ) (w : (Nat → PidState) × Best)
    (i : Nat) : R (w.1 i) (considerPid c w i).1 := by
  have hpaced := pacePid_stable hR c.cfg (w.1 i)
  have hdue := hR.trans hpaced (deadlineOf_stable hR c _ (pacePid c.cfg (w.1 i)).2)
  have hlast := hR.trans hdue (drainPace_stable hR c.inDrain _)
  unfold considerPid
  dsimp only
  split
  · exact resetPace_stable hR _
  · split
    · exact hpaced
    · split <;> exact hlast

theorem pickStep_across (hR : WalkStable R) (c : Core μ) (w : (Nat → PidState) × Best) (i : Nat) :
    Across R w.1 (pickStep c w i).1 :=
  updPid_across hR.toChain w.1 i (fun _ => _) (considerPid_stable hR c w i)

theorem walk_across (hR : Chain R) {c : Core μ}
    (hvisit : ∀ w i, R (w.1 i) (considerPid c w i).1) : Across R c.pids (tssPickEsPid c).1 := by
  have hwalk : ∀ (is : List Nat) (w : (Nat → PidState) × Best),
      Across R w.1 (is.foldl (pickStep c) w).1 := by
    intro is
    induction is with
    | nil => exact fun w => hR.across _
    | cons i is ih =>
      intro w
      have hfirst : Across R w.1 (pickStep c w i).1 :=
        updPid_across hR w.1 i (fun _ => _) (hvisit w i)
      exact hfirst.trans hR (ih _)
  exact hwalk (programPids c) (c.pids, Best.none)

theorem tssPickEsPid_across (hR : WalkStable R) (c : Core μ) :
    Across R c.pids (tssPickEsPid c).1 := walk_across hR.toChain (considerPid_stable hR c)

theorem scheduled_walk (hR : WalkStable R) (c : Core μ) :
    Across R (leakAll c) (scheduled c).1.pids :=
  tssPickEsPid_across hR { c with clock := advanceStc c.cfg c.clock, pids := leakAll c }

theorem scheduled_across (hR : WalkStable R) (hleak : ∀ delta p, R p (leakPid delta p))
    (c : Core μ) : Across R c.pids (scheduled c).1.pids := by
  have hleaked : Across R c.pids (leakAll c) := by
    unfold leakAll
    dsimp only
    split
    · exact mapPids_across hR.toChain _ _ (hleak _)
    · exact hR.across _
  exact hleaked.trans hR.toChain (scheduled_walk hR c)

/-! ### Emission -/

section Emission

variable (hR : Chain R)
include hR

theorem pcrWindow_across (hwindow : ∀ p sum n start, R p { p with
      secSumWindowInBps := sum, secNumWindows := n, windowStartAcceptBytes := start })
    (c : Core μ) (g : Nat) (pcr : Int) : Across R c.pids (pcrWindow c g pcr).1 := by
  have hopen : ∀ p, R p (openWindow p) := by
    intro p
    unfold openWindow
    split
    · exact hwindow p p.secSumWindowInBps p.secNumWindows _
    · exact hR.refl p
  have hclose : ∀ d p, R p (closeWindow d p) := by
    intro d p
    unfold closeWindow
    split
    · exact hwindow p _ _ _
    · exact hR.refl p
  have hopened : Across R c.pids
      (if decide ((c.programs g).pcrWindowStartPcr = noptsValue) = true
        then (c.programs g).pids.foldl (fun t i => updPid t i openWindow) c.pids else c.pids) := by
    split
    · exact updPids_across hR hopen _ _
    · exact hR.across _
  unfold pcrWindow
  dsimp only
  split
  · exact hopened.trans hR (updPids_across hR (hclose _) _ _)
  · exact hopened

theorem countBurst_across (hburst : ∀ p n, R p { p with burstCount := n }) (c : Core μ)
    (pids : Nat → PidState) (i : Nat) : Across R pids (countBurst c pids i) := by
  unfold countBurst
  split
  · exact updPid_across hR _ _ _ (hburst _ _)
  · refine Across.trans hR ?_ (updPid_across hR _ _ _ (hburst _ 1))
    split
    · exact updPid_across hR _ _ _ (hburst _ 0)
    · exact hR.across _

theorem emit_across_of (hwindow : ∀ p sum n start, R p { p with
      secSumWindowInBps := sum, secNumWindows := n, windowStartAcceptBytes := start })
    (hburst : ∀ p n, R p { p with burstCount := n }) (hcharge : ∀ p, R p (chargePid p))
    (hsend : ∀ p, R p { chargePid (takePacket p).2 with
      continuousFullnessBits := max 0 ((takePacket p).2.continuousFullnessBits - tsPacketBits) })
    (c : Core μ) (a : Action) : Across R c.pids (emit c a).pids := by
  cases a with
  | null => show Across R _ (emitNull c).pids; unfold emitNull; split <;> exact hR.across _
  | pcrOnly g =>
    exact (pcrWindow_across hR hwindow c g _).trans hR (updPid_across hR _ _ _ (hcharge _))
  | payload i =>
    exact Across.trans hR (updPid_across hR c.pids i (fun _ => _) (hsend (c.pids i)))
      (countBurst_across hR hburst c _ i)

end Emission

theorem emit_across (hR : SlotStable R) (c : Core μ) (a : Action) :
    Across R c.pids (emit c a).pids :=
  emit_across_of hR.chain hR.window hR.burst hR.charge
    (fun p => hR.trans (hR.trans (hR.take p) (hR.charge _)) (hR.fullness _ _)) c a

def chargedPid (c : Core μ) : Action → Option Nat
  | .null => none
  | .pcrOnly g => some (c.programs g).pcrPidState
  | .payload i => some i

/-- The PID table once the packet is charged. -/
def chargeAll (c : Core μ) (a : Action) : Nat → PidState := fun k =>
  if chargedPid c a = some k then chargePid (c.pids k) else c.pids k

theorem chargeAll_self {c : Core μ} {a : Action} {k : Nat} (h : chargedPid c a = some k) :
    chargeAll c a k = chargePid (c.pids k) := if_pos h

theorem chargeAll_other {c : Core μ} {a : Action} {k : Nat} (h : chargedPid c a ≠ some k) :
    chargeAll c a k = c.pids k := if_neg h

/-- **An emission charges one PID** and is bookkeeping otherwise. -/
theorem emit_charged (hR : FrameStable R) (c : Core μ) (a : Action) :
    Across R (chargeAll c a) (emit c a).pids := by
  have hchain := hR.toWalkStable.toChain
  intro k
  cases a with
  | null =>
    rw [chargeAll_other (by rintro ⟨⟩)]
    show R _ ((emitNull c).pids k)
    unfold emitNull
    split <;> exact hR.refl _
  | pcrOnly g =>
    have hwindow := pcrWindow_across hchain hR.window c g (pcrOf c g)
    show R _ (updPid (pcrWindow c g (pcrOf c g)).1 (c.programs g).pcrPidState chargePid k)
    unfold updPid
    by_cases hk : k = (c.programs g).pcrPidState
    · have hself : chargedPid c (.pcrOnly g) = some k := congrArg some hk.symm
      rw [chargeAll_self hself, if_pos hk]
      exact hR.charge (hwindow k)
    · have hother : chargedPid c (.pcrOnly g) ≠ some k := fun h => hk (Option.some.inj h).symm
      rw [chargeAll_other hother, if_neg hk]
      exact hwindow k
  | payload i =>
    refine hR.trans ?_ (countBurst_across hchain hR.burst c _ i k)
    unfold updPid
    by_cases hk : k = i
    · subst hk
      rw [chargeAll_self rfl, if_pos rfl]
      exact hR.trans (hR.charge (hR.take (c.pids k))) (hR.fullness _ _)
    · have hother : chargedPid c (.payload i) ≠ some k := fun h => hk (Option.some.inj h).symm
      rw [chargeAll_other hother, if_neg hk]
      exact hR.refl _

/-! ### After the emission -/

theorem tables_across (hR : AfterStable R) (si : SiCallback μ) (c : Core μ) :
    Across R c.pids (retransmitSdt si (retransmitPat si c)).pids := by
  have hsent : ∀ (forcePat forceSdt : Bool) (c : Core μ),
      Across R c.pids (retransmit si forcePat forceSdt c).pids := fun forcePat forceSdt c =>
    enqueueAll_across hR (si c.muxer forcePat forceSdt c.clock.vStc).2
      { c with muxer := (si c.muxer forcePat forceSdt c.clock.vStc).1 }
  have hpat : Across R c.pids (retransmitPat si c).pids := by
    unfold retransmitPat
    split
    · exact hsent true false c
    · exact hR.across _
  refine hpat.trans hR.toChain ?_
  unfold retransmitSdt
  split
  · exact hsent false true _
  · exact hR.across _

theorem tssAccountMetrology_across (hR : Chain R) (hmeasure : ∀ p, R p (measurePid p))
    (c : Core μ) : Across R c.pids (tssAccountMetrology c).pids := by
  unfold tssAccountMetrology
  dsimp only
  split
  · split
    · exact hR.across _
    · split
      · exact mapPids_across hR _ _ hmeasure
      · exact hR.across _
  · split
    · exact mapPids_across hR _ _ hmeasure
    · exact hR.across _

theorem tssRefillTokensFlywheel_across (hR : Chain R) (hrefill : ∀ delta p, R p (refillPid delta p))
    (c : Core μ) : Across R c.pids (tssRefillTokensFlywheel c).pids := by
  unfold tssRefillTokensFlywheel
  dsimp only
  split
  · exact hR.across _
  · split
    · exact mapPids_across hR _ _ (hrefill _)
    · exact hR.across _

/-- The PID table once the tokens are refilled, the physical clock being at `next`. -/
def refillAll (c : Core μ) (next : Int) : Nat → PidState :=
  (tssRefillTokensFlywheel { c with clock := { c.clock with physicalStc := next } }).pids

theorem postEmission_after (hR : AfterStable R) (si : SiCallback μ) (c : Core μ) (next : Int) :
    Across R (refillAll c next) (postEmission si c next).pids := by
  have hchain := hR.toChain
  unfold postEmission refillAll
  dsimp only
  generalize tssRefillTokensFlywheel { c with clock := { c.clock with physicalStc := next } } = r
  have hpanic : Across R r.pids ((closeSlot r).mapPids panicPid).pids :=
    mapPids_across hchain _ _ hR.panic
  generalize (closeSlot r).mapPids panicPid = q at hpanic ⊢
  have htables := tables_across hR si q
  generalize retransmitSdt si (retransmitPat si q) = t at htables ⊢
  have hdecode : Across R t.pids (t.mapPids (decodePid t.clock.vStc)).pids :=
    mapPids_across hchain _ _ (hR.decode _)
  exact hpanic.trans hchain (htables.trans hchain
    (hdecode.trans hchain (tssAccountMetrology_across hchain hR.measure _)))

theorem postEmission_across (hR : SlotStable R) (si : SiCallback μ) (c : Core μ) (next : Int) :
    Across R c.pids (postEmission si c next).pids := by
  have hrefill : Across R c.pids (refillAll c next) :=
    tssRefillTokensFlywheel_across hR.chain hR.refill
      { c with clock := { c.clock with physicalStc := next } }
  exact hrefill.trans hR.chain (postEmission_after hR.after si c next)

/-- **A slot** moves every PID along a stable relation. -/
theorem tssStepInternal_pids (hR : SlotStable R) (si : SiCallback μ) (c : Core μ) :
    Across R c.pids (tssStepInternal si c).pids := by
  unfold tssStepInternal
  split
  · exact hR.chain.across _
  · exact (scheduled_across hR.walk hR.leak c).trans hR.chain
      ((emit_across hR _ _).trans hR.chain (postEmission_across hR si _ _))

end Stable

end TsAnalyzer.Shaper
