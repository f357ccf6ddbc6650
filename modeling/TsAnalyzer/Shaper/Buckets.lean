/-
  The two buckets of a PID: the transport buffer TB_n of the decoding model, which leaks, and the
  token bucket of the pacer, which is refilled.  Both pay for every packet the PID sends.

  A slot does three things to them, in this order, and nothing else (`slot_charged`):

    1. `leakAll`   — the transport buffers leak for the length of a packet;
    2. `chargeAll` — the PID that sends is charged;
    3. `refillAll` — the tokens are refilled.

  Which PID sends is the choice of the scheduler (`chooseAction_payload`).  Only the pick of
  `tss_pick_es_pid` has passed both gates, room in TB_n and enough tokens (`pick_eligible`).
-/
import TsAnalyzer.Shaper.Events

namespace TsAnalyzer.Shaper

variable {μ : Type}

/-! ## The buckets and their frame -/

/-- What the two buckets of a PID consist of. -/
structure Buckets where
  type : PidType
  tokensBits : Int
  bucketSizeBits : Int
  baseRefillRateBps : Int
  tokenRemainder : Int
  bitrateBps : Int
  tbFullnessBits : Int
  tbSizeBits : Int
  rxRateBps : Int
  tbLeakRemainder : Int

def PidState.buckets (p : PidState) : Buckets where
  type := p.type
  tokensBits := p.tokensBits
  bucketSizeBits := p.bucketSizeBits
  baseRefillRateBps := p.baseRefillRateBps
  tokenRemainder := p.tokenRemainder
  bitrateBps := p.bitrateBps
  tbFullnessBits := p.tbFullnessBits
  tbSizeBits := p.tbSizeBits
  rxRateBps := p.rxRateBps
  tbLeakRemainder := p.tbLeakRemainder

def SameBuckets (p q : PidState) : Prop := q.buckets = p.buckets

theorem sameBuckets_chain : Chain SameBuckets := ⟨fun _ => rfl, fun h h' => h'.trans h⟩

theorem sameBuckets_upkeep : UpkeepStable SameBuckets where
  refl := sameBuckets_chain.refl
  trans := sameBuckets_chain.trans
  receive _ _ := rfl
  wait _ _ := rfl
  resume _ := rfl
  shed _ _ := rfl
  store _ _ _ _ _ := rfl
  take _ _ _ := rfl
  panic _ _ := rfl
  decode _ _ _ := rfl
  measure _ _ _ _ _ _ _ _ := rfl
  pacing _ _ _ := rfl
  deadline _ _ _ := rfl
  window _ _ _ _ := rfl
  fullness _ _ := rfl
  burst _ _ := rfl

theorem chargePid_buckets {p q : PidState} (h : SameBuckets p q) :
    SameBuckets (chargePid p) (chargePid q) := by
  show ({ q.buckets with
      tokensBits := q.buckets.tokensBits - tsPacketBits
      tbFullnessBits := q.buckets.tbFullnessBits + tsPacketBits } : Buckets) = _
  rw [show q.buckets = p.buckets from h]
  rfl

/-- **The buckets change by leak, charge and refill only**, as far as slots are concerned. -/
theorem sameBuckets_frame : FrameStable SameBuckets :=
  sameBuckets_upkeep.frame chargePid_buckets

theorem voterPid_buckets (physicalStc : Int) (master : Bool) (p : PidState) (delta : Int) :
    SameBuckets p (voterPid physicalStc master p delta).1 := by
  obtain ⟨average, state, streak, jump, start, offset, heq⟩ :=
    voterPid_fields physicalStc master p delta
  rw [heq]
  rfl

variable {R : PidState → PidState → Prop}

/-- Whatever unchanged buckets, and the fuse, move along `R`, the input path does. -/
theorem inputStable_of_buckets (hsame : ∀ {p q}, SameBuckets p q → R p q)
    (hfuse : ∀ p, R p { p with tokensBits := 0, tokenRemainder := 0 }) : InputStable R where
  note _ _ := hsame rfl
  resume _ := hsame rfl
  vote _ _ _ _ := hsame (voterPid_buckets _ _ _ _)
  arrive _ _ _ := hsame rfl
  resync _ := hsame rfl
  fuse := hfuse
  reset _ := hsame rfl

theorem afterStable_of_buckets (hR : Chain R)
    (hsame : ∀ {p q}, SameBuckets p q → R p q) : AfterStable R where
  toChain := hR
  enqueue vStc p pkt := hsame (sameBuckets_upkeep.enqueue vStc p pkt)
  panic p := hsame (sameBuckets_upkeep.panicPid p)
  decode vStc p := hsame (sameBuckets_upkeep.decodePid vStc p)
  measure p := hsame (sameBuckets_upkeep.measurePid p)

/-! ## A slot -/

def Due (c : Core μ) : Prop := ¬ nextPhysicalStc c < c.clock.nextSlotStc
deriving Decidable

def sentCore (c : Core μ) : Core μ := emit (scheduled c).1 (scheduled c).2

variable {c : Core μ}

theorem tssStepInternal_due (si : SiCallback μ) (h : Due c) :
    tssStepInternal si c = postEmission si (sentCore c) (nextPhysicalStc c) := if_neg h

theorem tssStepInternal_notDue (si : SiCallback μ) (h : ¬ Due c) :
    tssStepInternal si c = c := if_pos (Decidable.not_not.mp h)

theorem scheduled_buckets (c : Core μ) (k : Nat) :
    ((scheduled c).1.pids k).buckets = (leakAll c k).buckets :=
  scheduled_walk sameBuckets_frame.toWalkStable c k

/-- **A slot** leaks, charges and refills. -/
theorem slot_charged (si : SiCallback μ) (h : Due c) (k : Nat) :
    ((tssStepInternal si c).pids k).buckets =
        (refillAll (sentCore c) (nextPhysicalStc c) k).buckets ∧
      ((sentCore c).pids k).buckets =
        (chargeAll (scheduled c).1 (scheduled c).2 k).buckets := by
  rw [tssStepInternal_due si h]
  exact ⟨postEmission_after sameBuckets_frame.toAfterStable si _ _ k,
    emit_charged sameBuckets_frame _ _ k⟩

/-- The slot sends from the PID. -/
def SendsFrom (c : Core μ) (i : Nat) : Prop :=
  chargedPid (scheduled c).1 (scheduled c).2 = some i
deriving Decidable

theorem sentCore_layout (c : Core μ) : (sentCore c).layout = c.layout :=
  emit_layout (scheduled c).1 (scheduled c).2

theorem sentCore_clock (c : Core μ) :
    (sentCore c).cfg = c.cfg ∧ (sentCore c).clock = advanceStc c.cfg c.clock := by
  obtain ⟨hcfg, hclock⟩ := emit_clock (scheduled c).1 (scheduled c).2
  exact ⟨hcfg.trans (scheduled_beside c).cfg, hclock.trans (scheduled_beside c).clock⟩

variable {i : Nat} (cfg : Config)

theorem videoRefillRate_nonneg (br : Nat) : 0 ≤ videoRefillRate cfg br := by
  have hpcr : (0 : Int) ≤
      if cfg.pcrPeriodMs > 0 then ((64000 / cfg.pcrPeriodMs : Nat) : Int) else 2133 := by
    split
    · exact Int.natCast_nonneg _
    · decide
  unfold videoRefillRate
  refine Int.tdiv_nonneg ?_ (by decide)
  omega

theorem ticksPerPacket_nonneg : 0 ≤ cfg.ticksPerPacket :=
  Int.tdiv_nonneg (by decide) (Int.natCast_nonneg _)

theorem slot_clock (si : SiCallback μ) (h : Due c) :
    (tssStepInternal si c).clock =
      (advanceStc c.cfg c.clock).nextSlot c.cfg (nextPhysicalStc c) := by
  obtain ⟨hcfg, hclock⟩ := sentCore_clock c
  rw [tssStepInternal_due si h, (postEmission_beside si _ _).clock, hcfg, hclock]

theorem advanceStc_lastRefill (k : Clock) :
    (advanceStc cfg k).lastRefillPhysicalStc = k.lastRefillPhysicalStc := by
  unfold advanceStc
  split <;> rfl

/-- The flywheel turns: time has passed on the physical clock since the last refill. -/
def Turns (c : Core μ) (next : Int) : Prop :=
  c.clock.lastRefillPhysicalStc ≠ noptsValue ∧ c.clock.lastRefillPhysicalStc < next

theorem refillAll_turns {next : Int} (h : Turns c next) {k : Nat} (hk : k < c.layout.nbAllPids) :
    refillAll c next k = refillPid (next - c.clock.lastRefillPhysicalStc) (c.pids k) := by
  obtain ⟨hset, hlt⟩ := h
  have hpast : ¬ (c.clock.lastRefillPhysicalStc = noptsValue ∨
      next - c.clock.lastRefillPhysicalStc < 0) := by
    rintro (h | h)
    · exact hset h
    · omega
  have hpos : next - c.clock.lastRefillPhysicalStc > 0 := by omega
  unfold refillAll tssRefillTokensFlywheel
  dsimp only
  rw [if_neg hpast, if_pos hpos]
  exact if_pos hk

theorem refillAll_rests {next : Int} (h : ¬ Turns c next) (k : Nat) :
    refillAll c next k = c.pids k := by
  unfold refillAll tssRefillTokensFlywheel
  dsimp only
  split
  · rfl
  · rename_i hpast
    split
    · rename_i hpos
      refine absurd ⟨fun hset => hpast (.inl hset), ?_⟩ h
      omega
    · rfl

theorem refillAll_beyond (c : Core μ) (next : Int) {k : Nat} (hk : ¬ k < c.layout.nbAllPids) :
    refillAll c next k = c.pids k := by
  by_cases h : Turns c next
  · unfold refillAll tssRefillTokensFlywheel
    dsimp only
    split
    · rfl
    · split
      · exact if_neg hk
      · rfl
  · exact refillAll_rests h k

/-! ## The choice -/

theorem chooseAction_payload {es : Option Nat} (h : chooseAction c es = .payload i) :
    es = some i ∨ tablePid c = some i ∨ fallbackPid c = some i := by
  unfold chooseAction at h
  dsimp only at h
  split at h
  · cases es with
    | none => cases h
    | some j =>
      dsimp only at h
      split at h
      · injection h with h
        exact .inl (congrArg some h)
      · cases h
  · split at h
    · rename_i j hj
      injection h with h
      split at hj
      · exact .inr (.inl (h ▸ hj))
      · cases hj
    · cases es with
      | some j =>
        injection h with h
        exact .inl (congrArg some h)
      | none =>
        dsimp only at h
        split at h
        · rename_i j hj
          injection h with h
          exact .inr (.inr (h ▸ hj))
        · cases h

/-- Both gates of `tss_pick_es_pid` are open. -/
structure Eligible (p : PidState) : Prop where
  room : p.tbFullnessBits + tsPacketBits ≤ p.tbSizeBits
  tokens : p.isPanicMode = true ∨ tsPacketBits ≤ p.tokensBits

/-- The gates read fields that the walk leaves alone. -/
def SameGates (p q : PidState) : Prop := SameBuckets p q ∧ q.isPanicMode = p.isPanicMode

theorem sameGates_walk : WalkStable SameGates where
  refl _ := ⟨rfl, rfl⟩
  trans h h' := ⟨sameBuckets_chain.trans h.1 h'.1, h'.2.trans h.2⟩
  pacing _ _ _ := ⟨rfl, rfl⟩
  deadline _ _ _ := ⟨rfl, rfl⟩

theorem Eligible.same {p q : PidState} (h : Eligible p) (hpq : SameGates p q) : Eligible q := by
  obtain ⟨hb, hpanic⟩ := hpq
  have htb : q.tbFullnessBits = p.tbFullnessBits := congrArg Buckets.tbFullnessBits hb
  have hsize : q.tbSizeBits = p.tbSizeBits := congrArg Buckets.tbSizeBits hb
  have htok : q.tokensBits = p.tokensBits := congrArg Buckets.tokensBits hb
  constructor
  · rw [htb, hsize]
    exact h.room
  · rw [hpanic, htok]
    exact h.tokens

theorem challenge_pid (c : Core μ) (bestType : Option PidType) (i : Nat) (p : PidState)
    (d : Candidate) (best : Best) :
    (challenge c bestType i p d best).pid = some i ∨
      (challenge c bestType i p d best).pid = best.pid := by
  have hrule : ∀ r : Bool × Int,
      (if r.1 then (⟨some i, r.2, p.continuousFullnessBits, d.urgent⟩ : Best) else best).pid =
          some i ∨
        (if r.1 then (⟨some i, r.2, p.continuousFullnessBits, d.urgent⟩ : Best) else best).pid =
          best.pid := by
    intro r
    split
    · exact .inl rfl
    · exact .inr rfl
  exact hrule _

theorem considerPid_pick (c : Core μ) (w : (Nat → PidState) × Best) (i : Nat) :
    (considerPid c w i).2.pid = w.2.pid ∨
      ((considerPid c w i).2.pid = some i ∧ Eligible (considerPid c w i).1) := by
  have hdue := deadlineOf_stable sameGates_walk c (pacePid c.cfg (w.1 i)).1
    (pacePid c.cfg (w.1 i)).2
  have hlast := sameGates_walk.trans hdue (drainPace_stable sameGates_walk c.inDrain _)
  unfold considerPid
  dsimp only
  split
  · exact .inl rfl
  · split
    · exact .inl rfl
    · rename_i hroom
      split
      · exact .inl rfl
      · rename_i htokens
        rcases challenge_pid c (w.2.pid.map fun b => (w.1 b).type) i _ _ w.2 with hi | hbest
        · refine .inr ⟨hi, ?_, ?_⟩
          · have htb := congrArg Buckets.tbFullnessBits hlast.1
            have hsize := congrArg Buckets.tbSizeBits hlast.1
            dsimp only [PidState.buckets] at htb hsize
            rw [htb, hsize]
            omega
          · by_cases hpanic : (drainPace c.inDrain (deadlineOf c (pacePid c.cfg (w.1 i)).1
                (pacePid c.cfg (w.1 i)).2).1).isPanicMode = true
            · exact .inl hpanic
            · exact .inr (Int.not_lt.mp fun h => htokens ⟨hpanic, h⟩)
        · exact .inl hbest

theorem pick_of {P : PidState → Prop} (hR : WalkStable R) (hkeep : ∀ {p q}, P p → R p q → P q)
    (hpick : ∀ w i, (considerPid c w i).2.pid = w.2.pid ∨
      ((considerPid c w i).2.pid = some i ∧ P (considerPid c w i).1))
    (h : (tssPickEsPid c).2 = some i) : P ((tssPickEsPid c).1 i) := by
  -- the invariant of the walk: `P` holds of its best so far
  have hwalk : ∀ (is : List Nat) (w : (Nat → PidState) × Best),
      (∀ i, w.2.pid = some i → P (w.1 i)) →
      ∀ i, (is.foldl (pickStep c) w).2.pid = some i → P ((is.foldl (pickStep c) w).1 i) := by
    intro is
    induction is with
    | nil => exact fun w hw => hw
    | cons k is ih =>
      intro w hw
      refine ih (pickStep c w k) fun i hi => ?_
      rcases hpick w k with hbest | ⟨hk, hP⟩
      · exact hkeep (hw i (hbest.symm.trans hi)) (pickStep_across hR c w k i)
      · have hik : i = k := (Option.some.inj (hk.symm.trans hi)).symm
        have hnew : (pickStep c w k).1 i = (considerPid c w k).1 := if_pos hik
        rw [hnew]
        exact hP
  exact hwalk (programPids c) (c.pids, Best.none) (fun _ hi => by cases hi) i h

/-- **The pick of the scheduler has passed both gates.** -/
theorem pick_eligible (h : (tssPickEsPid c).2 = some i) : Eligible ((tssPickEsPid c).1 i) :=
  pick_of sameGates_walk Eligible.same (considerPid_pick c) h

/-- The PID that the elementary-stream scheduler picks for a slot. -/
def esPick (c : Core μ) : Option Nat :=
  (tssPickEsPid { c with clock := advanceStc c.cfg c.clock, pids := leakAll c }).2

theorem scheduled_action (c : Core μ) :
    (scheduled c).2 = chooseAction (scheduled c).1 (esPick c) := rfl

theorem esPick_eligible (h : esPick c = some i) :
    Eligible ((scheduled c).1.pids i) := pick_eligible h

/-! ## Beside the slots -/

/-- `d` agrees with `c` on the slot counter, the programs and the output. -/
structure SameOutput (c d : Core μ) : Prop where
  count : d.clock.packetCount = c.clock.packetCount
  programs : d.programs = c.programs
  out : d.out = c.out

theorem SameOutput.trans {d e : Core μ} (h : SameOutput c d) (h' : SameOutput d e) :
    SameOutput c e :=
  ⟨h'.count.trans h.count, h'.programs.trans h.programs, h'.out.trans h.out⟩

theorem Still.sameOutput {s t : Tsshaper μ} (h : Still s t) : SameOutput s.core t.core := by
  obtain ⟨m, hm⟩ := h.clock
  exact ⟨by rw [hm], h.programs, h.out⟩

theorem enqueueDts_sameOutput (s : Tsshaper μ) (pidNum : Nat) (dts : Int) (isKey : Bool) :
    SameOutput s.core (tsshaperEnqueueDts s pidNum dts isKey).core := by
  have hnote := fun i => (noteFrame_still s i isKey).sameOutput
  by_cases hcalm : Jumps s (.enqueueDts pidNum dts isKey)
  · obtain ⟨i, h | h⟩ := hcalm
    · have hanchor : ∀ t : Tsshaper μ, SameOutput t.core (resync (anchorAt t dts) i dts).core := by
        intro t
        dsimp only [resync, anchorAt, restartPids]
        split <;> exact ⟨rfl, rfl, rfl⟩
      rw [enqueueDts_anchored h]
      exact (hnote i).trans ((hanchor _).trans (arrive_still _ i dts).sameOutput)
    · obtain ⟨p, jump, -, heq⟩ := tssVoterProcess_translated h.2
      rw [enqueueDts_translated h, heq]
      exact (hnote i).trans ⟨rfl, rfl, rfl⟩
  · exact (enqueueDts_still hcalm).sameOutput

/-- **Only a slot that is due** counts, writes or touches the programs. -/
theorem eventStep_sameOutput (si : SiCallback μ) (s : Tsshaper μ) {e : Event}
    (h : e = .slot → ¬ Due s.core) : SameOutput s.core (eventStep si s e).core := by
  cases e with
  | enqueueDts pidNum dts isKey => exact enqueueDts_sameOutput s pidNum dts isKey
  | enqueueTs pidNum pkt =>
    have hbeside := tsshaperEnqueueTs_beside s.core pidNum pkt
    exact ⟨congrArg Clock.packetCount hbeside.clock, hbeside.programs, hbeside.out⟩
  | enterDrive =>
    show SameOutput s.core (driveFuse { s.core with inDrive := true })
    unfold driveFuse
    dsimp only
    split <;> exact ⟨rfl, rfl, rfl⟩
  | slot =>
    show SameOutput s.core (tssStepInternal si s.core)
    rw [tssStepInternal_notDue si (h rfl)]
    exact ⟨rfl, rfl, rfl⟩
  | _ => exact ⟨rfl, rfl, rfl⟩

theorem scheduled_count (c : Core μ) : (scheduled c).1.clock.packetCount = c.clock.packetCount := by
  show (advanceStc c.cfg c.clock).packetCount = _
  unfold advanceStc
  split <;> rfl

theorem slot_output (si : SiCallback μ) (h : Due c) :
    (tssStepInternal si c).clock.packetCount = c.clock.packetCount + 1 ∧
      (tssStepInternal si c).programs = (sentCore c).programs ∧
      (tssStepInternal si c).out = (sentCore c).out := by
  refine ⟨?_, ?_, ?_⟩
  · rw [slot_clock si h, ← scheduled_count c]
    rfl
  · rw [tssStepInternal_due si h]
    exact (postEmission_beside si _ _).programs
  · rw [tssStepInternal_due si h]
    exact (postEmission_beside si _ _).out

/-! ## The choice, from the state before the slot -/

theorem chooseAction_pcrOnly_iff {es : Option Nat} {g : Nat} :
    chooseAction c es = .pcrOnly g ↔ duePcr c = some g ∧ ¬ ∃ i ∈ es,
      congested (c.pids i) = true ∧ c.clock.packetCount < (c.programs g).nextPcrPacket + 2 := by
  unfold chooseAction
  cases duePcr c <;> cases es <;> grind

theorem chooseAction_null_iff {es : Option Nat} :
    chooseAction c es = .null ↔ duePcr c = none ∧
      (c.psiConsecutiveCount < 2 → tablePid c = none) ∧ es = none ∧ fallbackPid c = none := by
  unfold chooseAction
  cases duePcr c <;> cases es <;> grind

theorem duePcr_scheduled (c : Core μ) : duePcr (scheduled c).1 = duePcr c := by
  rw [duePcr, scheduled_count]
  rfl

/-- The walk of the scheduler changes neither queues nor bit rates. -/
theorem scheduled_queue (c : Core μ) (k : Nat) :
    ((scheduled c).1.pids k).tsFifo = (c.pids k).tsFifo ∧
      ((scheduled c).1.pids k).bitrateBps = (c.pids k).bitrateBps := by
  have hwalk : WalkStable fun p q => q.tsFifo = p.tsFifo ∧ q.bitrateBps = p.bitrateBps :=
    ⟨⟨fun _ => ⟨rfl, rfl⟩, fun h h' => ⟨h'.1.trans h.1, h'.2.trans h.2⟩⟩,
      fun _ _ _ => ⟨rfl, rfl⟩, fun _ _ _ => ⟨rfl, rfl⟩⟩
  exact scheduled_across hwalk (fun _ _ => ⟨rfl, rfl⟩) c k

/-- A PCR of program `g` gives way to a congested stream, for two slots at most. -/
def GivesWay (c : Core μ) (g : Nat) : Prop :=
  ∃ i ∈ esPick c, congested (c.pids i) = true ∧
    c.clock.packetCount < (c.programs g).nextPcrPacket + 2
deriving Decidable

theorem scheduled_pcrOnly_iff {g : Nat} :
    (scheduled c).2 = .pcrOnly g ↔ duePcr c = some g ∧ ¬ GivesWay c g := by
  have hsame : ∀ i, congested ((scheduled c).1.pids i) = congested (c.pids i) := by
    intro i
    obtain ⟨hfifo, hrate⟩ := scheduled_queue c i
    rw [congested, congested, queueDelayMs, queueDelayMs, hfifo, hrate]
  rw [scheduled_action, chooseAction_pcrOnly_iff, duePcr_scheduled, scheduled_count]
  simp only [hsame]
  rfl

/-- No PCR is due, no table may go out, the scheduler picks no PID and the fallback finds none. -/
def NothingToSend (c : Core μ) : Prop :=
  duePcr c = none ∧ (c.psiConsecutiveCount < 2 → tablePid c = none) ∧ esPick c = none ∧
    fallbackPid (scheduled c).1 = none
deriving Decidable

theorem scheduled_null_iff : (scheduled c).2 = .null ↔ NothingToSend c := by
  have hpacket : ∀ i, hasPacket ((scheduled c).1.pids i) = hasPacket (c.pids i) := by
    intro i
    rw [hasPacket, hasPacket, (scheduled_queue c i).1]
  have htable : tablePid (scheduled c).1 = tablePid c := by
    unfold tablePid
    simp only [hpacket]
    rfl
  rw [scheduled_action, chooseAction_null_iff, duePcr_scheduled, htable]
  rfl

end TsAnalyzer.Shaper
