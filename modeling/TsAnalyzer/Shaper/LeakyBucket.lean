/-
  Leaky-bucket conformance of the shaper's output, for one PID.

  The potential of a bucket is what it holds, debts forgiven, with the fraction the refill carries
  over (`level`): a payload packet uses up 1504 bits of it (`payload_tokens`), a refill adds at most
  120 % of the base rate (`refill_level`), and nothing else raises it (`levelKept_calm`).

  The bucket is cut to its size by the REFILL only.  A re-anchor overfills it and sets the flywheel
  to `v_stc`, ahead of `physical_stc`: the next step may refill nothing and leave it overfull
  (`refillSkipped_bursts`).
-/
import TsAnalyzer.Lib.Potential
import TsAnalyzer.Shaper.Buckets

namespace TsAnalyzer.Shaper

open Lib List

variable {μ : Type}

/-! ## The bucket of a PID -/

/-- What `tsshaper_add_pid` chooses for a bucket and every step keeps. -/
structure TokenSound (p : PidState) : Prop where
  rate : 0 ≤ p.baseRefillRateBps
  size : 0 ≤ p.bucketSizeBits
  remainder : 0 ≤ p.tokenRemainder
  fraction : p.tokenRemainder < sysClockFreq

/-- `q` has the bucket of `p`, with other contents. -/
def SameBucket (p q : PidState) : Prop :=
  q.baseRefillRateBps = p.baseRefillRateBps ∧ q.bucketSizeBits = p.bucketSizeBits

/-- What the bucket can pay for. -/
def level (p : PidState) : Int := sysClockFreq * max p.tokensBits 0 + p.tokenRemainder

/-- The most that a bucket is refilled with per second. -/
def maxRefillRate (p : PidState) : Int := (p.baseRefillRateBps * 120).tdiv 100

/-- The bucket stays, and stays sound. -/
def BucketKept (p q : PidState) : Prop := TokenSound p → TokenSound q ∧ SameBucket p q

/-- The bucket stays, and can pay for no more than before. -/
def LevelKept (p q : PidState) : Prop :=
  TokenSound p → TokenSound q ∧ SameBucket p q ∧ level q ≤ level p

theorem newPid_tokens (cfg : Config) (pidNum : Nat) (type : PidType) (br : Nat) :
    TokenSound (newPid cfg pidNum type br) := by
  have hrate : 0 ≤ (pidRates cfg br type).baseRefillRateBps := by
    cases type with
    | video => exact videoRefillRate_nonneg cfg br
    | audio => show (0 : Int) ≤ 2000000; decide
    | _ => show (0 : Int) ≤ 128000; decide
  have hsize : 0 ≤ (pidRates cfg br type).bucketSizeBits := by
    cases type with
    | video => exact Int.le_trans (by decide) (Int.le_max_left (tsPacketBits * 8) _)
    | audio => show (0 : Int) ≤ 3 * tsPacketBits; decide
    | _ => show (0 : Int) ≤ tsPacketBits * 16; decide
  exact ⟨hrate, hsize, Int.le_refl 0, by show (0 : Int) < sysClockFreq; decide⟩

/-! ## Between two slots -/

theorem bucketKept_chain : Chain BucketKept where
  refl _ h := ⟨h, rfl, rfl⟩
  trans h h' hp := ⟨(h' (h hp).1).1, (h' (h hp).1).2.1.trans (h hp).2.1,
    (h' (h hp).1).2.2.trans (h hp).2.2⟩

theorem levelKept_chain : Chain LevelKept where
  refl _ h := ⟨h, ⟨rfl, rfl⟩, Int.le_refl _⟩
  trans h h' hp := by
    obtain ⟨hq, ⟨hbase, hsize⟩, hle⟩ := h hp
    obtain ⟨hr, ⟨hbase', hsize'⟩, hle'⟩ := h' hq
    exact ⟨hr, ⟨hbase'.trans hbase, hsize'.trans hsize⟩, Int.le_trans hle' hle⟩

variable {p : PidState}

variable {e : Event} {q : PidState} (delta : Int)

theorem SameBuckets.tokens (h : SameBuckets p q) :
    q.tokensBits = p.tokensBits ∧ q.tokenRemainder = p.tokenRemainder ∧ SameBucket p q :=
  ⟨congrArg Buckets.tokensBits h, congrArg Buckets.tokenRemainder h,
    congrArg Buckets.baseRefillRateBps h, congrArg Buckets.bucketSizeBits h⟩

theorem levelKept_of_same (h : SameBuckets p q) : LevelKept p q := by
  obtain ⟨htokens, hrem, hbase, hsize⟩ := h.tokens
  intro hp
  refine ⟨⟨?_, ?_, ?_, ?_⟩, ⟨hbase, hsize⟩, ?_⟩
  · rw [hbase]; exact hp.rate
  · rw [hsize]; exact hp.size
  · rw [hrem]; exact hp.remainder
  · rw [hrem]; exact hp.fraction
  · unfold level
    rw [htokens, hrem]

theorem bucketKept_of_level (h : LevelKept p q) : BucketKept p q :=
  fun hp => ⟨(h hp).1, (h hp).2.1⟩

theorem levelKept_fuse (p : PidState) :
    LevelKept p { p with tokensBits := 0, tokenRemainder := 0 } := by
  intro h
  have hfraction : (0 : Int) < sysClockFreq := by decide
  refine ⟨⟨h.rate, h.size, Int.le_refl 0, hfraction⟩, ⟨rfl, rfl⟩, ?_⟩
  have hrem := h.remainder
  show sysClockFreq * max 0 0 + 0 ≤ sysClockFreq * max p.tokensBits 0 + p.tokenRemainder
  unfold sysClockFreq
  omega

theorem levelKept_input : InputStable LevelKept :=
  inputStable_of_buckets levelKept_of_same levelKept_fuse

theorem bucketKept_input : InputStable BucketKept :=
  inputStable_of_buckets (fun h => bucketKept_of_level (levelKept_of_same h))
    fun p => bucketKept_of_level (levelKept_fuse p)

theorem bucketKept_jump : JumpStable BucketKept where
  translate _ h := ⟨⟨h.rate, h.size, h.remainder, h.fraction⟩, rfl, rfl⟩
  reanchor _ h := ⟨⟨h.rate, h.size, h.remainder, h.fraction⟩, rfl, rfl⟩
  restart _ h := ⟨⟨h.rate, h.size, h.remainder, h.fraction⟩, rfl, rfl⟩

/-! ## The refill -/

/-- `effective_refill_rate`, as the refill uses it. -/
def refillRate (p : PidState) : Int :=
  if p.type = .video ∧ p.bitrateBps > 0 then trackRefillRate p else p.baseRefillRateBps

theorem refillRate_bounds (h : 0 ≤ p.baseRefillRateBps) :
    0 ≤ refillRate p ∧ refillRate p ≤ maxRefillRate p := by
  have hlow : 0 ≤ (p.baseRefillRateBps * 80).tdiv 100 := Int.tdiv_nonneg (by omega) (by decide)
  have hbase : p.baseRefillRateBps ≤ maxRefillRate p := by
    unfold maxRefillRate
    rw [Int.tdiv_eq_ediv_of_nonneg (by omega)]
    omega
  have horder : (p.baseRefillRateBps * 80).tdiv 100 ≤ maxRefillRate p := by
    rw [Int.tdiv_eq_ediv_of_nonneg (by omega)]
    omega
  have hclip : ∀ a, 0 ≤ tssClip64 a ((p.baseRefillRateBps * 80).tdiv 100) (maxRefillRate p) ∧
      tssClip64 a ((p.baseRefillRateBps * 80).tdiv 100) (maxRefillRate p) ≤ maxRefillRate p := by
    intro a
    unfold tssClip64
    split
    · exact ⟨hlow, horder⟩
    · split
      · exact ⟨by omega, Int.le_refl _⟩
      · exact ⟨by omega, by omega⟩
  unfold refillRate
  split
  · exact hclip _
  · exact ⟨h, hbase⟩

theorem refillPid_tokens (p : PidState) :
    (refillPid delta p).tokensBits =
      max (min (p.tokensBits + (delta * refillRate p + p.tokenRemainder).tdiv sysClockFreq)
        p.bucketSizeBits) (-(10 * tsPacketBits)) := by
  unfold refillPid refillRate
  simp only [decide_eq_true_eq]

theorem refillPid_remainder (p : PidState) :
    (refillPid delta p).tokenRemainder =
      (delta * refillRate p + p.tokenRemainder).tmod sysClockFreq := by
  unfold refillPid refillRate
  simp only [decide_eq_true_eq]

theorem refillPid_bucket (p : PidState) : SameBucket p (refillPid delta p) :=
  ⟨rfl, rfl⟩

/-- **One refill**: the bucket is cut to its size, and gains no more than its rate allows. -/
theorem refill_level {delta : Int} (hdelta : 0 < delta) (h : TokenSound p) :
    TokenSound (refillPid delta p) ∧ (refillPid delta p).tokensBits ≤ p.bucketSizeBits ∧
      level (refillPid delta p) ≤ level p + delta * maxRefillRate p := by
  obtain ⟨hpos, hmax⟩ := refillRate_bounds h.rate
  have hgain : delta * refillRate p ≤ delta * maxRefillRate p :=
    Int.mul_le_mul_of_nonneg_left hmax (Int.le_of_lt hdelta)
  have hwork : 0 ≤ delta * refillRate p + p.tokenRemainder :=
    Int.add_nonneg (Int.mul_nonneg (Int.le_of_lt hdelta) hpos) h.remainder
  have htokens := refillPid_tokens delta p
  have hrem := refillPid_remainder delta p
  -- the bits are those of the work, with the remainder carried over
  have hsplit : (delta * refillRate p + p.tokenRemainder).tdiv sysClockFreq * sysClockFreq +
      (delta * refillRate p + p.tokenRemainder).tmod sysClockFreq =
        delta * refillRate p + p.tokenRemainder := Int.tdiv_mul_add_tmod _ _
  have hbits := Int.tdiv_nonneg hwork (show (0 : Int) ≤ sysClockFreq by decide)
  have hlow := Int.tmod_nonneg sysClockFreq hwork
  have hhigh := Int.tmod_lt_of_pos (delta * refillRate p + p.tokenRemainder)
    (show (0 : Int) < sysClockFreq by decide)
  have hsize := h.size
  refine ⟨⟨h.rate, h.size, ?_, ?_⟩, ?_, ?_⟩
  · rw [hrem]
    exact hlow
  · rw [hrem]
    exact hhigh
  · rw [htokens]
    unfold tsPacketBits
    omega
  · unfold level
    rw [htokens, hrem]
    generalize (delta * refillRate p + p.tokenRemainder).tdiv sysClockFreq = bits at *
    generalize (delta * refillRate p + p.tokenRemainder).tmod sysClockFreq = rem at *
    unfold sysClockFreq tsPacketBits at *
    omega

theorem refillAll_sound (c : Core μ) (next : Int) (k : Nat) :
    BucketKept (c.pids k) (refillAll c next k) := by
  by_cases hk : k < c.layout.nbAllPids
  · by_cases hturns : Turns c next
    · intro h
      rw [refillAll_turns hturns hk]
      obtain ⟨-, hlt⟩ := hturns
      exact ⟨(refill_level (by omega) h).1, refillPid_bucket _ _⟩
    · rw [refillAll_rests hturns]
      exact bucketKept_chain.refl _
  · rw [refillAll_beyond c next hk]
    exact bucketKept_chain.refl _

/-! ## One slot -/

theorem leakAll_tokens (c : Core μ) (k : Nat) :
    (leakAll c k).tokensBits = (c.pids k).tokensBits ∧
      (leakAll c k).tokenRemainder = (c.pids k).tokenRemainder ∧
      SameBucket (c.pids k) (leakAll c k) ∧
      (leakAll c k).isPanicMode = (c.pids k).isPanicMode := by
  unfold leakAll mapPids
  split
  · dsimp only
    split <;> exact ⟨rfl, rfl, ⟨rfl, rfl⟩, rfl⟩
  · exact ⟨rfl, rfl, ⟨rfl, rfl⟩, rfl⟩

theorem sent_tokens (c : Core μ) (k : Nat) :
    ((sentCore c).pids k).tokensBits =
        (c.pids k).tokensBits - (if SendsFrom c k then tsPacketBits else 0) ∧
      ((sentCore c).pids k).tokenRemainder = (c.pids k).tokenRemainder ∧
      SameBucket (c.pids k) ((sentCore c).pids k) := by
  obtain ⟨a1, a2, a3, a4⟩ := SameBuckets.tokens
    (emit_charged sameBuckets_frame (scheduled c).1 (scheduled c).2 k)
  obtain ⟨b1, b2, b3, b4⟩ := SameBuckets.tokens (scheduled_buckets c k)
  obtain ⟨d1, d2, ⟨d3, d4⟩, -⟩ := leakAll_tokens c k
  unfold SameBucket sentCore
  rw [a1, a2, a3, a4, ← d1, ← d2, ← d3, ← d4, ← b1, ← b2, ← b3, ← b4]
  by_cases hk : SendsFrom c k
  · rw [chargeAll_self hk, if_pos hk]
    exact ⟨rfl, rfl, rfl, rfl⟩
  · rw [chargeAll_other hk, if_neg hk, Int.sub_zero]
    exact ⟨rfl, rfl, rfl, rfl⟩

theorem sent_sound (c : Core μ) (k : Nat) : BucketKept (c.pids k) ((sentCore c).pids k) := by
  obtain ⟨-, hrem, hbase, hsize⟩ := sent_tokens c k
  intro h
  refine ⟨⟨?_, ?_, ?_, ?_⟩, hbase, hsize⟩
  · rw [hbase]; exact h.rate
  · rw [hsize]; exact h.size
  · rw [hrem]; exact h.remainder
  · rw [hrem]; exact h.fraction

variable (si : SiCallback μ)

theorem slot_bucketKept (c : Core μ) (k : Nat) :
    BucketKept (c.pids k) ((tssStepInternal si c).pids k) := by
  by_cases hdue : Due c
  · have hsame : SameBuckets _ _ := (slot_charged si hdue k).1
    exact bucketKept_chain.trans (sent_sound c k) (bucketKept_chain.trans
      (refillAll_sound _ _ k) (bucketKept_of_level (levelKept_of_same hsame)))
  · rw [tssStepInternal_notDue si hdue]
    exact bucketKept_chain.refl _

/-- The positions that PSI preemption sends from: the PAT, the SDT, and one for each program. -/
def TablePosition (l : Layout) (i : Nat) : Prop :=
  l.patPidState = some i ∨ l.sdtPidState = some i ∨ (2 ≤ i ∧ i < 2 + l.nbPrograms)
deriving Decidable

variable {c : Core μ} {i : Nat}

theorem tablePid_position (h : tablePid c = some i) : TablePosition c.layout i := by
  have hmem := mem_of_find?_eq_some h
  rcases mem_append.mp hmem with hmem | hmem
  · rcases mem_append.mp hmem with hmem | hmem
    · exact .inl (Option.mem_toList.mp hmem)
    · exact .inr (.inl (Option.mem_toList.mp hmem))
  · obtain ⟨g, hg, hi⟩ := mem_filterMap.mp hmem
    have hlt := mem_range.mp hg
    split at hi
    · injection hi with hi
      refine .inr (.inr ?_)
      omega
    · cases hi

theorem fallbackPid_tokens (h : fallbackPid c = some i) : tsPacketBits ≤ (c.pids i).tokensBits := by
  have hsome := find?_some h
  exact (of_decide_eq_true hsome).2.2.1

/-- **A payload packet is paid for**: unless PSI preemption or the panic mode sends it, the bucket
    holds a packet's worth of tokens. -/
theorem payload_tokens (hpay : (scheduled c).2 = .payload i) (htable : ¬ TablePosition c.layout i)
    (hpanic : (c.pids i).isPanicMode = false) : tsPacketBits ≤ (c.pids i).tokensBits := by
  obtain ⟨hsame, hmode⟩ := scheduled_walk sameGates_walk c i
  obtain ⟨hleak, -, -, hleakMode⟩ := leakAll_tokens c i
  have htokens : ((scheduled c).1.pids i).tokensBits = (c.pids i).tokensBits :=
    (SameBuckets.tokens hsame).1.trans hleak
  rw [← htokens]
  rcases chooseAction_payload hpay with hes | htab | hfall
  · rcases (esPick_eligible hes).tokens with hon | hge
    · rw [hmode, hleakMode, hpanic] at hon
      cases hon
    · exact hge
  · have hposition : TablePosition (scheduled c).1.layout i := tablePid_position htab
    exact absurd hposition htable
  · exact fallbackPid_tokens hfall

/-- The slot sends a payload packet of the PID. -/
def SendsPayload (c : Core μ) (i : Nat) : Prop := Due c ∧ (scheduled c).2 = .payload i
deriving Decidable

def payloadCost (c : Core μ) (i : Nat) : Int :=
  if SendsPayload c i then sysClockFreq * tsPacketBits else 0

theorem sent_level (hpaid : (scheduled c).2 = .payload i → tsPacketBits ≤ (c.pids i).tokensBits) :
    level ((sentCore c).pids i) + payloadCost c i ≤ level (c.pids i) := by
  obtain ⟨htokens, hrem, -⟩ := sent_tokens c i
  unfold level payloadCost
  rw [htokens, hrem]
  by_cases hpay : (scheduled c).2 = .payload i
  · have hfrom : SendsFrom c i := congrArg (chargedPid _) hpay
    have hge := hpaid hpay
    rw [if_pos hfrom]
    have hcost : (if SendsPayload c i then sysClockFreq * tsPacketBits else 0) ≤
        sysClockFreq * tsPacketBits := by
      split
      · exact Int.le_refl _
      · decide
    unfold sysClockFreq tsPacketBits at *
    omega
  · have hnot : ¬ SendsPayload c i := fun h => hpay h.2
    have hcharge : (0 : Int) ≤ if SendsFrom c i then tsPacketBits else 0 := by
      split <;> decide
    rw [if_neg hnot]
    unfold sysClockFreq
    omega

/-- The flywheel was turned together with the physical clock. -/
def FlywheelInStep (c : Core μ) : Prop :=
  c.clock.lastRefillPhysicalStc = c.clock.physicalStc ∨ c.clock.physicalStc = noptsValue

/-- **One slot** of a window: what it sends is paid by what the bucket loses and what a refill may
    add in the time of a packet. -/
theorem slot_level (hi : i < c.layout.nbAllPids) (hsound : TokenSound (c.pids i))
    (hstep : FlywheelInStep c) (hset : c.clock.physicalStc ≠ noptsValue)
    (hpaid : (scheduled c).2 = .payload i → tsPacketBits ≤ (c.pids i).tokensBits) :
    level ((tssStepInternal si c).pids i) + payloadCost c i ≤
      level (c.pids i) + c.cfg.ticksPerPacket * maxRefillRate (c.pids i) := by
  have hticks := ticksPerPacket_nonneg c.cfg
  have hgain : 0 ≤ c.cfg.ticksPerPacket * maxRefillRate (c.pids i) := by
    obtain ⟨hlow, hhigh⟩ := refillRate_bounds hsound.rate
    exact Int.mul_nonneg hticks (Int.le_trans hlow hhigh)
  by_cases hdue : Due c
  · have hsent := sent_level hpaid
    obtain ⟨hsound', hbucket⟩ := sent_sound c i hsound
    have hafter : level ((tssStepInternal si c).pids i) ≤
        level (refillAll (sentCore c) (nextPhysicalStc c) i) :=
      (levelKept_of_same (slot_charged si hdue i).1 (refillAll_sound _ _ i hsound').1).2.2
    have hrefill : level (refillAll (sentCore c) (nextPhysicalStc c) i) ≤
        level ((sentCore c).pids i) + c.cfg.ticksPerPacket * maxRefillRate (c.pids i) := by
      by_cases hturns : Turns (sentCore c) (nextPhysicalStc c)
      · have hdelta : nextPhysicalStc c - (sentCore c).clock.lastRefillPhysicalStc =
            c.cfg.ticksPerPacket := by
          rw [(sentCore_clock c).2, advanceStc_lastRefill, hstep.resolve_right hset]
          unfold nextPhysicalStc
          rw [if_neg hset]
          omega
        have hmax : maxRefillRate ((sentCore c).pids i) = maxRefillRate (c.pids i) := by
          unfold maxRefillRate
          rw [hbucket.1]
        have hpos : 0 < c.cfg.ticksPerPacket := by
          rw [← hdelta]
          have := hturns.2
          omega
        have hlt : i < (sentCore c).layout.nbAllPids := by
          rw [sentCore_layout]
          exact hi
        rw [refillAll_turns hturns hlt, hdelta, ← hmax]
        exact (refill_level hpos hsound').2.2
      · rw [refillAll_rests hturns]
        omega
    omega
  · have hnot : payloadCost c i = 0 := if_neg fun h => hdue h.1
    rw [tssStepInternal_notDue si hdue, hnot]
    omega

/-! ## Windows -/

/-- Neither re-anchor nor translation; a step finds the clock set and the PID not in panic mode. -/
def Paced (i : Nat) (s : Tsshaper μ) (e : Event) : Prop :=
  ¬ Jumps s e ∧
    (e = .slot → s.core.clock.physicalStc ≠ noptsValue ∧ (s.core.pids i).isPanicMode = false)
deriving Decidable

/-- The payload packets of the PID that an event sends: one or none. -/
def payloadsAt (i : Nat) (s : Tsshaper μ) (e : Event) : Nat :=
  if e = .slot ∧ SendsPayload s.core i then 1 else 0

/-- The payload packets of the PID that a run sends. -/
def payloads (si : SiCallback μ) (i : Nat) (s : Tsshaper μ) (events : List Event) : Nat :=
  sumAlong (payloadsAt i) (eventStep si) s events

/-- What an event costs, in bits times ticks. -/
def costAt (i : Nat) (s : Tsshaper μ) (e : Event) : Int :=
  sysClockFreq * tsPacketBits * payloadsAt i s e

/-- What an event of a window that starts in `s₀` may refill. -/
def gainAt (s₀ : Tsshaper μ) (i : Nat) (e : Event) : Int :=
  if e = .slot then s₀.core.cfg.ticksPerPacket * maxRefillRate (s₀.core.pids i) else 0

/-- The steps of a run. -/
def slots (events : List Event) : Nat := events.countP fun e => e = .slot

variable {s : Tsshaper μ}

theorem flywheel_event (hcalm : ¬ Jumps s e) (h : FlywheelInStep s.core) :
    FlywheelInStep (eventStep si s e).core := by
  cases e with
  | enqueueDts pidNum dts isKey =>
    obtain ⟨m, hclock⟩ := (enqueueDts_still hcalm).clock
    show FlywheelInStep (tsshaperEnqueueDts s pidNum dts isKey).core
    unfold FlywheelInStep
    rw [hclock]
    exact h
  | enqueueTs pidNum pkt =>
    show FlywheelInStep (tsshaperEnqueueTs s.core pidNum pkt)
    unfold FlywheelInStep
    rw [(tsshaperEnqueueTs_beside s.core pidNum pkt).clock]
    exact h
  | enterDrive =>
    show FlywheelInStep (driveFuse { s.core with inDrive := true })
    unfold driveFuse
    dsimp only
    split
    · exact .inl rfl
    · exact h
  | slot =>
    show FlywheelInStep (tssStepInternal si s.core)
    by_cases hdue : Due s.core
    · unfold FlywheelInStep
      rw [slot_clock si hdue]
      exact .inl rfl
    · rw [tssStepInternal_notDue si hdue]
      exact h
  | leaveDrive | enterDrain => exact h
  | resetTimeline => exact .inr rfl

/-- A window, seen from its start `s₀`. -/
structure Rolling (s₀ : Tsshaper μ) (i : Nat) (s : Tsshaper μ) : Prop where
  setUp : SameSetUp s₀.core s.core
  flywheel : FlywheelInStep s.core
  sound : TokenSound (s.core.pids i)
  bucket : SameBucket (s₀.core.pids i) (s.core.pids i)

theorem bucketKept_event (s : Tsshaper μ) (e : Event) (i : Nat) :
    BucketKept (s.core.pids i) ((eventStep si s e).core.pids i) := by
  by_cases he : e = .slot
  · subst he
    exact slot_bucketKept si s.core i
  · exact eventStep_between (afterStable_of_buckets bucketKept_chain
      fun h => bucketKept_of_level (levelKept_of_same h)) bucketKept_input bucketKept_jump si s he i

theorem Rolling.event {s₀ : Tsshaper μ} (h : Rolling s₀ i s) (hcalm : ¬ Jumps s e) :
    Rolling s₀ i (eventStep si s e) := by
  obtain ⟨hsound, hbase, hsize⟩ := bucketKept_event si s e i h.sound
  exact ⟨h.setUp.trans (eventStep_sameSetUp si s e), flywheel_event si hcalm h.flywheel, hsound,
    hbase.trans h.bucket.1, hsize.trans h.bucket.2⟩

/-- **One event** of a window, for the potential. -/
theorem Rolling.pays {s₀ : Tsshaper μ} (hi : i < s₀.core.layout.nbAllPids)
    (htable : ¬ TablePosition s₀.core.layout i) (h : Rolling s₀ i s) (hpaced : Paced i s e) :
    level ((eventStep si s e).core.pids i) + costAt i s e ≤
      level (s.core.pids i) + gainAt s₀ i e := by
  obtain ⟨hcalm, hslot⟩ := hpaced
  have hlayout := h.setUp.layout
  by_cases he : e = .slot
  · subst he
    obtain ⟨hset, hpanic⟩ := hslot rfl
    have hrate : maxRefillRate (s.core.pids i) = maxRefillRate (s₀.core.pids i) := by
      unfold maxRefillRate
      rw [h.bucket.1]
    have hpays := slot_level si (by rw [hlayout]; exact hi) h.sound h.flywheel hset
      fun hpay => payload_tokens hpay (by rw [hlayout]; exact htable) hpanic
    rw [hrate, h.setUp.cfg] at hpays
    have hgain : gainAt s₀ i .slot =
        s₀.core.cfg.ticksPerPacket * maxRefillRate (s₀.core.pids i) := if_pos rfl
    have hcost : costAt i s .slot = payloadCost s.core i := by
      unfold costAt payloadsAt payloadCost
      by_cases hsends : SendsPayload s.core i
      · rw [if_pos ⟨rfl, hsends⟩, if_pos hsends, Nat.cast_one, Int.mul_one]
      · rw [if_neg fun h => hsends h.2, if_neg hsends, Nat.cast_zero, Int.mul_zero]
    rw [hgain, hcost]
    exact hpays
  · have hkept : LevelKept (s.core.pids i) ((eventStep si s e).core.pids i) :=
      eventStep_calm (afterStable_of_buckets levelKept_chain levelKept_of_same) levelKept_input si
        he hcalm i
    have hcost : costAt i s e = 0 := by
      unfold costAt payloadsAt
      rw [if_neg fun h => he h.1, Nat.cast_zero, Int.mul_zero]
    have hgain : gainAt s₀ i e = 0 := if_neg he
    rw [hcost, hgain]
    exact Int.add_le_add_right (hkept h.sound).2.2 0

theorem maxRefillRate_le (h : 0 ≤ p.baseRefillRateBps) :
    (maxRefillRate p : ℚ) ≤ 120 / 100 * p.baseRefillRateBps := by
  have hint : maxRefillRate p * 100 ≤ p.baseRefillRateBps * 120 := by
    unfold maxRefillRate
    rw [Int.tdiv_eq_ediv_of_nonneg (by omega)]
    omega
  have hrat : (maxRefillRate p : ℚ) * 100 ≤ p.baseRefillRateBps * 120 := by exact_mod_cast hint
  linarith

/-- A window that starts with no more than a full bucket sends no more than bucket and refill pay
    for, in bits times ticks. -/
theorem window_level (s : Tsshaper μ)
    (hi : i < s.core.layout.nbAllPids) (htable : ¬ TablePosition s.core.layout i)
    (hstep : FlywheelInStep s.core) (hsound : TokenSound (s.core.pids i)) (events : List Event)
    (hpaced : Along (Paced i) (eventStep si) s events) :
    sysClockFreq * tsPacketBits * (payloads si i s events : Int) ≤
      level (s.core.pids i) +
        slots events * (s.core.cfg.ticksPerPacket * maxRefillRate (s.core.pids i)) := by
  have hstart : Rolling s i s := ⟨⟨rfl, rfl⟩, hstep, hsound, rfl, rfl⟩
  have hpays : ∀ t e, Rolling s i t → Paced i t e →
      level ((eventStep si t e).core.pids i) + costAt i t e ≤
        level (t.core.pids i) + gainAt s i e := fun t e h hp => h.pays si hi htable hp
  have hkeeps : ∀ t e, Rolling s i t → Paced i t e → Rolling s i (eventStep si t e) :=
    fun t e h hp => h.event si hp.1
  have hrun := potential_run (M := ℤ) (V := fun t : Tsshaper μ => level (t.core.pids i))
    (c := costAt i) (g := fun _ e => gainAt s i e) hkeeps hpays events s hstart hpaced
  have hend : 0 ≤ level ((events.foldl (eventStep si) s).core.pids i) := by
    have hlast :=
      (along_inv hkeeps events s hstart hpaced events (prefix_refl _)).sound.remainder
    unfold level sysClockFreq
    omega
  have hcost : sumAlong (costAt i) (eventStep si) s events =
      sysClockFreq * tsPacketBits * (payloads si i s events : Int) :=
    (map_sumAlong ((AddMonoidHom.mulLeft (sysClockFreq * tsPacketBits)).comp
      (Nat.castAddMonoidHom ℤ)) (payloadsAt i) (eventStep si) events s).symm
  have hgain : sumAlong (fun _ e => gainAt s i e) (eventStep si) s events =
      slots events * (s.core.cfg.ticksPerPacket * maxRefillRate (s.core.pids i)) :=
    (sumAlong_count (· = Event.slot) _ (eventStep si) events s).trans (nsmul_eq_mul _ _)
  rw [hcost, hgain] at hrun
  omega

theorem run_tokens (hs : SetUp s) (hi : i < s.core.layout.nbAllPids) (events : List Event) :
    SameSetUp s.core (events.foldl (eventStep si) s).core ∧
      TokenSound ((events.foldl (eventStep si) s).core.pids i) := by
  have hstart : TokenSound (s.core.pids i) := by
    obtain ⟨pidNum, type, br, hnew⟩ := hs.pids i hi
    rw [hnew]
    exact newPid_tokens _ _ _ _
  exact along_inv (R := fun _ _ => True)
    (I := fun t => SameSetUp s.core t.core ∧ TokenSound (t.core.pids i))
    (fun t e h _ => ⟨h.1.trans (eventStep_sameSetUp si t e), (bucketKept_event si t e i h.2).1⟩)
    events s ⟨⟨rfl, rfl⟩, hstart⟩ (along_true _ events s) events (prefix_refl _)

/-- **Leaky-bucket conformance.**  In every run of a shaper, for every PID that is not at a table's
    position, and every window that starts right after a step and meets neither re-anchor,
    translation nor panic mode: if the bucket is not overfull at the start of the window, the
    payload packets sent in its `n` steps fit into the bucket, plus one bit, plus `n` packet times
    at 120 % of the base rate. -/
theorem leaky_bucket (si : SiCallback μ) (s : Tsshaper μ) (hs : SetUp s) (before : List Event)
    (i : Nat) (hi : i < s.core.layout.nbAllPids) (htable : ¬ TablePosition s.core.layout i)
    (hdue : Due (before.foldl (eventStep si) s).core) (events : List Event) :
    let w := eventStep si (before.foldl (eventStep si) s) .slot
    let p := w.core.pids i
    p.tokensBits ≤ p.bucketSizeBits →
    Along (Paced i) (eventStep si) w events →
    (1504 * payloads si i w events : ℚ) ≤ p.bucketSizeBits + 1 +
      120 / 100 * p.baseRefillRateBps * slots events * w.core.cfg.ticksPerPacket / 27000000 := by
  intro w p hcut hpaced
  have hrun : w = (before ++ [Event.slot]).foldl (eventStep si) s := by
    rw [foldl_append]
    rfl
  obtain ⟨hsame, hsound⟩ := run_tokens si hs hi (before ++ [.slot])
  rw [← hrun] at hsame hsound
  have hstep : FlywheelInStep w.core := by
    show FlywheelInStep (tssStepInternal si _)
    unfold FlywheelInStep
    rw [slot_clock si hdue]
    exact .inl rfl
  have hwindow := window_level si w (by rw [hsame.layout]; exact hi)
    (by rw [hsame.layout]; exact htable) hstep hsound events hpaced
  have hlevel : level p ≤ sysClockFreq * p.bucketSizeBits + sysClockFreq := by
    have hfraction : p.tokenRemainder < sysClockFreq := hsound.fraction
    have hsize : 0 ≤ p.bucketSizeBits := hsound.size
    unfold level
    unfold sysClockFreq at hfraction ⊢
    omega
  have hint := Int.le_trans hwindow (Int.add_le_add_right hlevel _)
  have hrate := maxRefillRate_le hsound.rate
  have hticks : (0 : ℚ) ≤ slots events * w.core.cfg.ticksPerPacket := by
    have := ticksPerPacket_nonneg w.core.cfg
    positivity
  have hrat : (27000000 * 1504 * payloads si i w events : ℚ) ≤
      27000000 * p.bucketSizeBits + 27000000 +
        slots events * (w.core.cfg.ticksPerPacket * maxRefillRate p) := by
    exact_mod_cast hint
  have hmost : (slots events * (w.core.cfg.ticksPerPacket * maxRefillRate p) : ℚ) ≤
      120 / 100 * p.baseRefillRateBps * slots events * w.core.cfg.ticksPerPacket := by
    calc (slots events * (w.core.cfg.ticksPerPacket * maxRefillRate p) : ℚ)
        = slots events * w.core.cfg.ticksPerPacket * maxRefillRate p := by ring
      _ ≤ slots events * w.core.cfg.ticksPerPacket * (120 / 100 * p.baseRefillRateBps) :=
          mul_le_mul_of_nonneg_left hrate hticks
      _ = 120 / 100 * p.baseRefillRateBps * slots events * w.core.cfg.ticksPerPacket := by ring
  have hsplit : (120 / 100 * p.baseRefillRateBps * slots events * w.core.cfg.ticksPerPacket : ℚ) =
      120 / 100 * p.baseRefillRateBps * slots events * w.core.cfg.ticksPerPacket / 27000000 *
        27000000 := by ring
  linarith

def videoPacket : Packet := fun i => [0x47, 0x01, 0x00, 0x10].getD i 0xff

/-- Five video packets, sent in the steps after the first one. -/
theorem video_conforms :
    let before : List Event := [.enqueueDts 0 0 true] ++
      replicate 6 (.enqueueTs 0x100 videoPacket) ++ [.enqueueDts 0 8118273 false, .enterDrive]
    let w := eventStep noTables (before.foldl (eventStep noTables)
      ⟨Timeline.init, oneStream ⟨10000000, 35, 0, 0, 1⟩ 1000⟩) .slot
    let p := w.core.pids 0
    (1504 * payloads noTables 0 w (replicate 4 .slot) : ℚ) ≤ p.bucketSizeBits + 1 +
      120 / 100 * p.baseRefillRateBps * slots (replicate 4 .slot) *
        w.core.cfg.ticksPerPacket / 27000000 :=
  leaky_bucket noTables _ (oneStream_setUp _ _) _ 0 (by decide) (by decide) (by decide +kernel) _
    (by decide +kernel) (by decide +kernel)

/-- A 269 Mbit/s multiplex with a 600 kbit/s video PID; its PCR is not due for a while. -/
def fastMux : Core Unit :=
  let cfg : Config := ⟨269000000, 35, 399, 0, 1⟩
  let c := oneStream cfg 1
  { c with
    programs := fun g => { c.programs g with nextPcrPacket := 1000000 }
    pids := fun _ => newPid cfg 0x100 .video 600000 }

/-- **A re-anchor overfills the bucket, and the next step does not cut it.**  In 179 slots `v_stc`
    has got 171 ticks ahead of `physical_stc`.  The re-anchor fills the bucket for 50 ms and sets
    the flywheel to `v_stc`; the next slot is 150 ticks long, ends before that, and does not refill.
    The nine slots after it send nine packets, 13536 bits, where 12032 + 1 + 39 are allowed. -/
theorem refillSkipped_bursts :
    let before : List Event := [.resetTimeline, .enqueueDts 0 0 true, .enterDrive] ++
      replicate 179 .slot ++ [.leaveDrive, .enqueueDts 0 0 true] ++
      replicate 10 (.enqueueTs 0x100 videoPacket) ++
      [.enqueueDts 0 (79800 * 27 + 1500) false, .enterDrive]
    let w := eventStep noTables (before.foldl (eventStep noTables) ⟨Timeline.init, fastMux⟩) .slot
    let p := w.core.pids 0
    Due (before.foldl (eventStep noTables) ⟨Timeline.init, fastMux⟩).core ∧
      Along (Paced 0) (eventStep noTables) w (replicate 9 .slot) ∧
      payloads noTables 0 w (replicate 9 .slot) = 9 ∧
      p.tokensBits = 31175 ∧ p.bucketSizeBits = 12032 ∧
      ¬ (1504 * payloads noTables 0 w (replicate 9 .slot) : ℚ) ≤ p.bucketSizeBits + 1 +
        120 / 100 * p.baseRefillRateBps * slots (replicate 9 .slot) *
          w.core.cfg.ticksPerPacket / 27000000 := by
  decide +kernel

end TsAnalyzer.Shaper
