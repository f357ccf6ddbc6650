/-
  The accuracy of the PCRs the shaper sends.

  `stc` is exact: it carries the remainder of the division by the mux rate.  `physical_stc` drops
  it, and the PCR is taken from THIS one.  Over a stretch without re-anchor, translation or fuse it
  is linear in the slot (`Ticking`), so two PCRs `n` slots apart are off by
  `n * rem_per_packet / mux_rate` ticks: exact to one tick for as long as
  `n * rem_per_packet ≤ mux_rate`, and not after (`pcr_accuracy_iff`).

  A stretch may begin and end in the middle of a drive: it is a run of EVENTS.
-/
import TsAnalyzer.Shaper.Events

namespace TsAnalyzer.Shaper

open Lib List

variable {μ : Type}

/-! ## What leaves the slot clock alone -/

/-- `d` agrees with `c` on the slot clock, the programs and the output. -/
structure SameSlot (c d : Core μ) : Prop where
  cfg : d.cfg = c.cfg
  physicalStc : d.clock.physicalStc = c.clock.physicalStc
  packetCount : d.clock.packetCount = c.clock.packetCount
  programs : d.programs = c.programs
  out : d.out = c.out

variable {c : Core μ}

theorem SameSlot.trans {d e : Core μ} (h : SameSlot c d) (h' : SameSlot d e) : SameSlot c e :=
  ⟨h'.cfg.trans h.cfg, h'.physicalStc.trans h.physicalStc, h'.packetCount.trans h.packetCount,
    h'.programs.trans h.programs, h'.out.trans h.out⟩

theorem Beside.sameSlot {d : Core μ} (h : Beside c d) : SameSlot c d :=
  ⟨h.cfg, congrArg Clock.physicalStc h.clock, congrArg Clock.packetCount h.clock, h.programs, h.out⟩

variable {s : Tsshaper μ}

theorem Still.sameSlot {t : Tsshaper μ} (h : Still s t) (hset : SameSetUp s.core t.core) :
    SameSlot s.core t.core := by
  obtain ⟨maxDts, hclock⟩ := h.clock
  refine ⟨hset.cfg, ?_, ?_, h.programs, h.out⟩
  · rw [hclock]
  · rw [hclock]

/-- No re-anchor, no translation, no drive fuse, no reset. -/
def Undisturbed (s : Tsshaper μ) : Event → Prop
  | .enqueueDts pidNum dts isKey => ∀ i, tssGetState s.core pidNum = some i →
      ¬ Reanchors s i isKey ∧ ¬ Translates (noteFrame s i isKey).1 i dts
  | .enterDrive => fuseBlows s.core = false
  | .resetTimeline => False
  | _ => True

theorem Undisturbed.not_jumps {pidNum : Nat} {dts : Int} {isKey : Bool}
    (h : Undisturbed s (.enqueueDts pidNum dts isKey)) :
    ¬ Jumps s (.enqueueDts pidNum dts isKey) := by
  rintro ⟨i, hjump⟩
  have harrives := arrives_of_jump hjump
  obtain ⟨hanchor, htranslate⟩ := h i harrives.1
  rcases hjump with hanchors | htranslates
  · exact hanchor ((anchors_noteFrame harrives.2.2).mp hanchors.2)
  · exact htranslate ⟨htranslates.1.2.2.2, htranslates.2⟩

theorem enqueueDts_sameSlot {pidNum : Nat} {dts : Int} {isKey : Bool}
    (h : Undisturbed s (.enqueueDts pidNum dts isKey)) :
    SameSlot s.core (tsshaperEnqueueDts s pidNum dts isKey).core :=
  (enqueueDts_still h.not_jumps).sameSlot (enqueueDts_sameSetUp s pidNum dts isKey)

/-! ## What a slot sends -/

/-- The PCR of program `g` is behind the clock: the next one will not be pushed past the last. -/
def PcrBehind (c : Core μ) (g : Nat) : Prop :=
  (c.programs g).lastPcrVal = noptsValue ∨ (c.programs g).lastPcrVal < pcrIdeal c

theorem pcrOf_eq_ideal {g : Nat} (h : PcrBehind c g) : pcrOf c g = pcrIdeal c := by
  have hlast : ∀ last, last = noptsValue ∨ last < pcrIdeal c →
      (if last ≠ noptsValue ∧ pcrIdeal c ≤ last then last + 1 else pcrIdeal c) = pcrIdeal c := by
    intro last hbehind
    apply if_neg
    rintro ⟨hset, hle⟩
    rcases hbehind with hnone | hlt
    · exact hset hnone
    · omega
  apply hlast
  split
  · exact .inl rfl
  · exact h

/-- What an emission means for program `g`: its PCR is not sent and its last one stays, or a packet
    with the PCR `pcrOf c g` is sent. -/
theorem emit_pcr (c : Core μ) (a : Action) (g : Nat) :
    (((emit c a).programs g).lastPcrVal = (c.programs g).lastPcrVal ∧
      ∃ new, (emit c a).out = c.out ++ new ∧ ∀ e ∈ new, ∀ p, e.pcr = some p → p.program ≠ g) ∨
    (((emit c a).programs g).lastPcrVal = pcrOf c g ∧
      ∃ e, (emit c a).out = c.out ++ [e] ∧ e.slot = c.clock.packetCount ∧
        ∀ p, e.pcr = some p → p.value = pcrOf c g) := by
  cases a with
  | null =>
    refine .inl ?_
    show ((emitNull c).programs g).lastPcrVal = _ ∧ ∃ new, (emitNull c).out = _ ∧ _
    unfold emitNull
    split
    · exact ⟨rfl, [], (append_nil _).symm, fun _ h => absurd h not_mem_nil⟩
    · refine ⟨rfl, _, rfl, fun e he p hp => ?_⟩
      rw [mem_singleton.mp he] at hp
      cases hp
  | payload i =>
    refine .inl ⟨rfl, _, rfl, fun e he p hp => ?_⟩
    rw [mem_singleton.mp he] at hp
    cases hp
  | pcrOnly k =>
    by_cases hk : g = k
    · subst hk
      refine .inr ⟨?_, _, rfl, rfl, ?_⟩
      · show (if g = g then _ else c.programs g).lastPcrVal = _
        rw [if_pos rfl]
      · rintro p ⟨⟩
        rfl
    · refine .inl ⟨?_, _, rfl, fun e he p hp => ?_⟩
      · show (if g = k then _ else c.programs g).lastPcrVal = _
        rw [if_neg hk]
      · rw [mem_singleton.mp he] at hp
        cases hp
        exact fun h => hk h.symm

theorem advanceStc_sameSlot (c : Core μ) :
    SameSlot c { c with clock := advanceStc c.cfg c.clock } := by
  have hclock : (advanceStc c.cfg c.clock).physicalStc = c.clock.physicalStc ∧
      (advanceStc c.cfg c.clock).packetCount = c.clock.packetCount := by
    unfold advanceStc
    split <;> exact ⟨rfl, rfl⟩
  exact ⟨rfl, hclock.1, hclock.2, rfl, rfl⟩

/-- **A slot** is nothing, or an emission on an unchanged slot clock that moves on after it. -/
theorem tssStepInternal_slot (si : SiCallback μ) (c : Core μ) :
    tssStepInternal si c = c ∨ ∃ d a, SameSlot c d ∧
      SameSlot
        { emit d a with clock := (emit d a).clock.nextSlot (emit d a).cfg (nextPhysicalStc c) }
        (tssStepInternal si c) := by
  unfold tssStepInternal
  split
  · exact .inl rfl
  · exact .inr ⟨_, _, (advanceStc_sameSlot c).trans (scheduled_beside c).sameSlot,
      (postEmission_beside si _ _).sameSlot⟩

/-! ## The stretch -/

/-- A stretch of the shaper's output, for program `g`: the physical clock is linear in the slot, and
    so is every PCR sent since the output was `start`. -/
structure Ticking (cfg : Config) (base : Int) (g : Nat) (start : List Emitted) (c : Core μ) :
    Prop where
  config : c.cfg = cfg
  clock : c.clock.physicalStc = base + cfg.ticksPerPacket * c.clock.packetCount
  set : noptsValue < c.clock.physicalStc
  behind : PcrBehind c g
  log : ∃ sent, c.out = start ++ sent ∧ ∀ e ∈ sent, ∀ p, e.pcr = some p → p.program = g →
    p.value = base + cfg.ticksPerPacket * e.slot + pcrTicks cfg

section Stretch

variable {cfg : Config} {base : Int} {g : Nat} {start : List Emitted}

theorem Ticking.same {d : Core μ} (h : Ticking cfg base g start c) (hsame : SameSlot c d) :
    Ticking cfg base g start d := by
  have hideal : pcrIdeal d = pcrIdeal c := by
    unfold pcrIdeal
    rw [hsame.physicalStc, hsame.cfg]
  refine ⟨hsame.cfg.trans h.config, ?_, ?_, ?_, ?_⟩
  · rw [hsame.physicalStc, hsame.packetCount]
    exact h.clock
  · rw [hsame.physicalStc]
    exact h.set
  · unfold PcrBehind
    rw [hsame.programs, hideal]
    exact h.behind
  · rw [hsame.out]
    exact h.log

theorem Ticking.slot (hpos : 0 < cfg.ticksPerPacket) (si : SiCallback μ)
    (h : Ticking cfg base g start c) : Ticking cfg base g start (tssStepInternal si c) := by
  rcases tssStepInternal_slot si c with hgate | ⟨d, a, hcd, hnext⟩
  · rw [hgate]
    exact h
  · have hd := h.same hcd
    have hphysical : nextPhysicalStc c = d.clock.physicalStc + cfg.ticksPerPacket := by
      have hset : c.clock.physicalStc ≠ noptsValue := Int.ne_of_gt h.set
      unfold nextPhysicalStc
      rw [if_neg hset, h.config, hcd.physicalStc]
    obtain ⟨hcfg, hclock⟩ := emit_clock d a
    suffices hmoved : Ticking cfg base g start { emit d a with
        clock := (emit d a).clock.nextSlot (emit d a).cfg (nextPhysicalStc c) }
      from hmoved.same hnext
    refine ⟨hcfg.trans hd.config, ?_, ?_, ?_, ?_⟩
    · show nextPhysicalStc c = base + cfg.ticksPerPacket * ((emit d a).clock.packetCount + 1)
      rw [hphysical, hclock, hd.clock, Int.mul_add, Int.mul_one, Int.add_assoc]
    · show noptsValue < nextPhysicalStc c
      have := hd.set
      omega
    · -- the last PCR is at most the ideal one of this slot, and the clock has moved on
      have hideal : pcrIdeal d < nextPhysicalStc c + pcrTicks (emit d a).cfg := by
        unfold pcrIdeal
        rw [hphysical, hcfg]
        omega
      show _ = noptsValue ∨ _ < nextPhysicalStc c + pcrTicks (emit d a).cfg
      rcases emit_pcr d a g with ⟨hlast, -⟩ | ⟨hlast, -⟩
      · rw [hlast]
        exact hd.behind.imp_right fun hlt => Int.lt_trans hlt hideal
      · rw [hlast, pcrOf_eq_ideal hd.behind]
        exact .inr hideal
    · obtain ⟨sent, hout, hsent⟩ := hd.log
      show ∃ sent, (emit d a).out = start ++ sent ∧ _
      rcases emit_pcr d a g with ⟨-, new, hnew, hother⟩ | ⟨-, e, hnew, hslot, hvalue⟩
      · refine ⟨sent ++ new, by rw [hnew, hout, append_assoc], fun e he p hp hg => ?_⟩
        rcases mem_append.mp he with he | he
        · exact hsent e he p hp hg
        · exact absurd hg (hother e he p hp)
      · refine ⟨sent ++ [e], by rw [hnew, hout, append_assoc], fun e' he p hp hg => ?_⟩
        rcases mem_append.mp he with he | he
        · exact hsent e' he p hp hg
        · rw [mem_singleton.mp he] at hp ⊢
          rw [hvalue p hp, pcrOf_eq_ideal hd.behind, hslot, ← hd.clock, ← hd.config]
          rfl

theorem driveFuse_sameSlot (h : fuseBlows c = false) :
    SameSlot c (driveFuse { c with inDrive := true }) := by
  have h' : ¬ fuseBlows { c with inDrive := true } = true := by
    show ¬ fuseBlows c = true
    rw [h]
    exact Bool.false_ne_true
  unfold driveFuse
  dsimp only
  rw [if_neg h']
  exact ⟨rfl, rfl, rfl, rfl, rfl⟩

theorem Ticking.event (hpos : 0 < cfg.ticksPerPacket) (si : SiCallback μ) {e : Event}
    (h : Ticking cfg base g start s.core) (hcalm : Undisturbed s e) :
    Ticking cfg base g start (eventStep si s e).core := by
  cases e with
  | enqueueDts pidNum dts isKey => exact h.same (enqueueDts_sameSlot hcalm)
  | enqueueTs pidNum pkt => exact h.same (tsshaperEnqueueTs_beside _ _ _).sameSlot
  | enterDrive => exact h.same (driveFuse_sameSlot hcalm)
  | slot => exact h.slot hpos si
  | leaveDrive | enterDrain => exact h.same ⟨rfl, rfl, rfl, rfl, rfl⟩
  | resetTimeline => exact hcalm.elim

end Stretch

/-! ## Accuracy -/

theorem Config.ticksPerPacket_pos {cfg : Config} (hrate : 0 < cfg.muxRate)
    (hle : (cfg.muxRate : Int) ≤ Config.packetTicks) : 0 < cfg.ticksPerPacket := by
  have hone : 1 ≤ Config.packetTicks / (cfg.muxRate : Int) := by
    rw [Int.le_ediv_iff_mul_le (by omega)]
    omega
  unfold Config.ticksPerPacket
  rw [Int.tdiv_eq_ediv_of_nonneg (by decide)]
  omega

/-- The error of `n` truncated ticks, over the rate: `n` remainders. -/
theorem Config.drift (cfg : Config) (n : Nat) :
    cfg.ticksPerPacket * n * cfg.muxRate - n * Config.packetTicks = -(n * cfg.remPerPacket) := by
  have hsplit : cfg.ticksPerPacket * cfg.muxRate + cfg.remPerPacket = Config.packetTicks :=
    Int.tdiv_mul_add_tmod _ _
  rw [← hsplit, Int.mul_add, Int.mul_comm cfg.ticksPerPacket n, Int.mul_assoc]
  omega

/-- **PCR accuracy, exactly.**  Over a stretch without re-anchor, translation or fuse, two PCRs of a
    program sent `n` slots apart differ by `n * 1504 * 27000000 / mux_rate` to within one tick if
    and only if `n` dropped remainders do not exceed the rate. -/
theorem pcr_accuracy_iff (si : SiCallback μ) (s : Tsshaper μ) (g : Nat) (events : List Event)
    (hrate : 0 < s.core.cfg.muxRate) (hle : (s.core.cfg.muxRate : Int) ≤ Config.packetTicks)
    (hclock : noptsValue < s.core.clock.physicalStc) (hbehind : PcrBehind s.core g)
    (hcalm : Along Undisturbed (eventStep si) s events) :
    let sent := (events.foldl (eventStep si) s).core.out.drop s.core.out.length
    ∀ e₁ ∈ sent, ∀ e₂ ∈ sent, ∀ p₁ p₂ : PcrSent, ∀ n : Nat,
      e₁.pcr = some p₁ → e₂.pcr = some p₂ → p₁.program = g → p₂.program = g →
      e₂.slot = e₁.slot + n →
      (((p₂.value - p₁.value) * s.core.cfg.muxRate - n * Config.packetTicks).natAbs
          ≤ s.core.cfg.muxRate ↔
        n * s.core.cfg.remPerPacket ≤ s.core.cfg.muxRate) := by
  intro sent e₁ he₁ e₂ he₂ p₁ p₂ n hp₁ hp₂ hg₁ hg₂ hn
  have hpos := Config.ticksPerPacket_pos hrate hle
  have hstart : Ticking s.core.cfg
      (s.core.clock.physicalStc - s.core.cfg.ticksPerPacket * s.core.clock.packetCount) g s.core.out
      s.core := by
    refine ⟨rfl, (Int.sub_add_cancel _ _).symm, hclock, hbehind, [], (append_nil _).symm, ?_⟩
    exact fun _ h => absurd h not_mem_nil
  have hend := along_inv (I := fun t => Ticking s.core.cfg _ g s.core.out t.core)
    (fun t e ht he => ht.event hpos si he) events s hstart hcalm events (prefix_refl _)
  obtain ⟨new, hout, hnew⟩ := hend.log
  have hsent : sent = new := by
    show drop _ _ = new
    rw [hout, drop_left]
  rw [hsent] at he₁ he₂
  have hdiff : p₂.value - p₁.value = s.core.cfg.ticksPerPacket * n := by
    rw [hnew e₁ he₁ p₁ hp₁ hg₁, hnew e₂ he₂ p₂ hp₂ hg₂, hn, Int.mul_add]
    omega
  have hrem : 0 ≤ (n : Int) * s.core.cfg.remPerPacket :=
    Int.mul_nonneg (Int.natCast_nonneg n) (Int.tmod_nonneg _ (by decide))
  rw [hdiff, Config.drift]
  omega

/-- A 10 Mbit/s multiplex (4060.8 ticks a packet) with a PCR in every slot, anchored and with two
    frames in. -/
def primed : Tsshaper Unit :=
  [Call.enqueueDts 0 0 true, .enqueueDts 0 8112000 false].foldl (callStep noTables)
    ⟨Timeline.init, oneStream ⟨10000000, 35, 0, 0, 1⟩ 1⟩

def pcrsOf (out : List Emitted) : List (Int × Option PcrSent) := out.map fun e => (e.slot, e.pcr)

/-- Two slots of a drive: PCRs one slot apart are accurate to a tick. -/
theorem primed_two_slots :
    let sent := ([Event.enterDrive, .slot, .slot].foldl (eventStep noTables) primed).core.out.drop 0
    pcrsOf sent = [(0, some ⟨0, 6210237, false⟩), (1, some ⟨0, 6214297, false⟩)] ∧
    ∀ e₁ ∈ sent, ∀ e₂ ∈ sent, ∀ p₁ p₂ : PcrSent, ∀ n : Nat,
      e₁.pcr = some p₁ → e₂.pcr = some p₂ → p₁.program = 0 → p₂.program = 0 →
      e₂.slot = e₁.slot + n →
      (((p₂.value - p₁.value) * primed.core.cfg.muxRate - n * Config.packetTicks).natAbs
          ≤ primed.core.cfg.muxRate ↔
        n * primed.core.cfg.remPerPacket ≤ primed.core.cfg.muxRate) :=
  ⟨by decide +kernel,
    pcr_accuracy_iff noTables primed 0 [.enterDrive, .slot, .slot] (by decide +kernel)
      (by decide +kernel) (by decide +kernel) (.inl (by decide +kernel))
      ⟨by show fuseBlows primed.core = false; decide +kernel, trivial, trivial, trivial⟩⟩

/-- **Two slots are already too many** for the physical clock at 10 Mbit/s: in one drive, without a
    fuse, the PCRs of slots 0 and 2 are 8120 ticks apart where 8121.6 ticks have passed. -/
theorem primed_drive_drifts :
    fuseBlows primed.core = false ∧
      pcrsOf (callStep noTables primed .drive).core.out =
        [(0, some ⟨0, 6210237, false⟩), (1, some ⟨0, 6214297, false⟩),
          (2, some ⟨0, 6218357, false⟩)] ∧
      ¬ (((6218357 - 6210237 : Int) * primed.core.cfg.muxRate - 2 * Config.packetTicks).natAbs
        ≤ primed.core.cfg.muxRate) := by
  decide +kernel

end TsAnalyzer.Shaper
