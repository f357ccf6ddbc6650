/-
  Discontinuities of the output's clock, and how the programs hear of them.

  A translation or a hard re-anchor sets ONE flag, `pending_discontinuity`.  The next PCR packet
  carries the indicator and clears the flag, whichever program it belongs to.
-/
import TsAnalyzer.Shaper.Buckets
import TsAnalyzer.Shaper.PcrAccuracy

namespace TsAnalyzer.Shaper

open Lib List

variable {μ : Type}

/-! ## What happens -/

inductive Happening where
  /-- A translation or a hard re-anchor. -/
  | jumped
  /-- A PCR packet, and the ideal PCR of its slot. -/
  | pcr (sent : PcrSent) (ideal : Int)
  deriving DecidableEq

def Happening.IsJump : Happening → Prop
  | .jumped => True
  | .pcr .. => False

def Happening.IsPcrOf (g : Nat) : Happening → Prop
  | .jumped => False
  | .pcr p _ => p.program = g

/-- The event translates the timeline, or anchors it anew on running clocks. -/
def HardJump (s : Tsshaper μ) : Event → Prop
  | .enqueueDts pidNum dts isKey => ∃ i, TranslatesAt s pidNum dts isKey i ∨
      (AnchorsAt s pidNum dts isKey i ∧ s.core.clock.vStc ≠ noptsValue)
  | _ => False

variable {g : Nat} {past : List Happening} {s : Tsshaper μ}

theorem arrives_of_hardJump {pidNum : Nat} {dts : Int} {isKey : Bool} {i : Nat}
    (h : TranslatesAt s pidNum dts isKey i ∨
      (AnchorsAt s pidNum dts isKey i ∧ s.core.clock.vStc ≠ noptsValue)) :
    Arrives s pidNum dts isKey i := by
  rcases h with h | h
  · exact h.1.1
  · exact h.1.1

instance (s : Tsshaper μ) : (e : Event) → Decidable (HardJump s e)
  | .enqueueDts .. => decidable_of_iff _ (arrives_any_iff fun _ => arrives_of_hardJump)
  | .enqueueTs .. | .enterDrive | .slot | .leaveDrive | .enterDrain | .resetTimeline => isFalse id

def pcrsSent (before after : Core μ) : List PcrSent :=
  (after.out.drop before.out.length).filterMap (·.pcr)

def happens (si : SiCallback μ) (s : Tsshaper μ) (e : Event) : List Happening :=
  (if HardJump s e then [.jumped] else []) ++
    (pcrsSent s.core (eventStep si s e).core).map (.pcr · (pcrIdeal s.core))

/-- The shaper, with what happens to its clock. -/
def signalPush (si : SiCallback μ) (s : Tsshaper μ) (e : Event) : Tsshaper μ × List Happening :=
  (eventStep si s e, happens si s e)

/-- A jump has not been signalled to the program yet. -/
def Owed (g : Nat) (past : List Happening) : Prop :=
  Since Happening.IsJump (Happening.IsPcrOf g) past

/-- What is claimed of a PCR, given what happened before it: it is flagged if it is the first one of
    its program after a jump, and it is the ideal one. -/
def Signalled (past : List Happening) : Happening → Prop
  | .jumped => True
  | .pcr p ideal => (Owed p.program past → p.discontinuity = true) ∧ p.value = ideal

/-! ## An emission -/

variable {c : Core μ}

theorem pcrOf_ideal (h : c.pendingDiscontinuity = true ∨ PcrBehind c g) :
    pcrOf c g = pcrIdeal c := by
  rcases h with h | h
  · unfold pcrOf
    rw [if_pos h]
    exact if_neg fun hlast => hlast.1 rfl
  · exact pcrOf_eq_ideal h

theorem emit_pcrs (c : Core μ) (a : Action) :
    ((emit c a).programs = c.programs ∧
      (emit c a).pendingDiscontinuity = c.pendingDiscontinuity ∧
      ∃ new, (emit c a).out = c.out ++ new ∧ new.filterMap (·.pcr) = []) ∨
    ∃ g, a = .pcrOnly g ∧ (emit c a).pendingDiscontinuity = false ∧
      (∀ k, ((emit c a).programs k).lastPcrVal =
        if k = g then pcrOf c g else (c.programs k).lastPcrVal) ∧
      ∃ new, (emit c a).out = c.out ++ new ∧
        new.filterMap (·.pcr) = [⟨g, pcrOf c g, c.pendingDiscontinuity⟩] := by
  cases a with
  | null =>
    refine .inl ?_
    show (emitNull c).programs = _ ∧ (emitNull c).pendingDiscontinuity = _ ∧
      ∃ new, (emitNull c).out = _ ∧ _
    unfold emitNull
    split
    · exact ⟨rfl, rfl, [], (append_nil _).symm, rfl⟩
    · exact ⟨rfl, rfl, _, rfl, rfl⟩
  | payload i => exact .inl ⟨rfl, rfl, _, rfl, rfl⟩
  | pcrOnly g =>
    refine .inr ⟨g, rfl, rfl, ?_, _, rfl, rfl⟩
    intro k
    show (if k = g then _ else c.programs k).lastPcrVal = _
    split <;> rfl

theorem scheduled_program (h : (scheduled c).2 = .pcrOnly g) : g < c.layout.nbPrograms := by
  exact mem_range.mp (mem_of_find?_eq_some (scheduled_pcrOnly_iff.mp h).1)

theorem scheduled_ideal (c : Core μ) : pcrIdeal (scheduled c).1 = pcrIdeal c := by
  have hphysical : (advanceStc c.cfg c.clock).physicalStc = c.clock.physicalStc :=
    (advanceStc_sameSlot c).physicalStc
  show (advanceStc c.cfg c.clock).physicalStc + pcrTicks c.cfg = _
  rw [hphysical]
  rfl

theorem scheduled_pcrOf (c : Core μ) (g : Nat) : pcrOf (scheduled c).1 g = pcrOf c g := by
  unfold pcrOf
  rw [scheduled_ideal]
  rfl

theorem slot_pcrs (si : SiCallback μ) (hdue : Due c) :
    ((tssStepInternal si c).programs = c.programs ∧
      (tssStepInternal si c).pendingDiscontinuity = c.pendingDiscontinuity ∧
      pcrsSent c (tssStepInternal si c) = []) ∨
    ∃ g, g < c.layout.nbPrograms ∧ (tssStepInternal si c).pendingDiscontinuity = false ∧
      (∀ k, ((tssStepInternal si c).programs k).lastPcrVal =
        if k = g then pcrOf c g else (c.programs k).lastPcrVal) ∧
      pcrsSent c (tssStepInternal si c) = [⟨g, pcrOf c g, c.pendingDiscontinuity⟩] := by
  have hafter := postEmission_beside si (sentCore c) (nextPhysicalStc c)
  rw [← tssStepInternal_due si hdue] at hafter
  have hsent : ∀ new, (sentCore c).out = c.out ++ new →
      pcrsSent c (tssStepInternal si c) = new.filterMap (·.pcr) := by
    intro new hnew
    unfold pcrsSent
    rw [hafter.out, hnew, drop_left]
  rcases emit_pcrs (scheduled c).1 (scheduled c).2 with
    ⟨hprograms, hpending, new, hout, hnone⟩ | ⟨g, hact, hpending, hlast, new, hout, hone⟩
  · exact .inl ⟨hafter.programs.trans hprograms, hafter.pending.trans hpending,
      (hsent new hout).trans hnone⟩
  · rw [scheduled_pcrOf] at hone
    refine .inr ⟨g, scheduled_program hact, hafter.pending.trans hpending, ?_,
      (hsent new hout).trans hone⟩
    intro k
    rw [hafter.programs]
    show ((emit (scheduled c).1 (scheduled c).2).programs k).lastPcrVal = _
    rw [hlast, scheduled_pcrOf]
    rfl

/-! ## One program -/

/-- The condition on an event.  A jump finds one program at most, and a first anchor no PCR that was
    sent before it; the loops of drive and drain run on clocks that are set. -/
def Orderly (s : Tsshaper μ) : Event → Prop
  | .enqueueDts pidNum dts isKey =>
    (HardJump s (.enqueueDts pidNum dts isKey) → s.core.layout.nbPrograms ≤ 1) ∧
      (Jumps s (.enqueueDts pidNum dts isKey) → s.core.clock.vStc = noptsValue →
        ∀ g, g < s.core.layout.nbPrograms → (s.core.programs g).lastPcrVal = noptsValue)
  | .enterDrive => s.core.clock.vStc ≠ noptsValue
  | .slot => noptsValue < s.core.clock.physicalStc
  | _ => True

instance (s : Tsshaper μ) : (e : Event) → Decidable (Orderly s e)
  | .enqueueDts .. => inferInstanceAs (Decidable ((_ → _) ∧ (_ → _ → ∀ g, g < _ → _)))
  | .enterDrive => inferInstanceAs (Decidable (_ ≠ _))
  | .slot => inferInstanceAs (Decidable (_ < _))
  | .enqueueTs .. | .leaveDrive | .enterDrain | .resetTimeline => isTrue trivial

/-- The clocks are set, and no program will have to push its next PCR past its last one. -/
structure Ahead (c : Core μ) : Prop where
  logical : c.clock.vStc = c.clock.stcBase
  physical : c.clock.physicalStc ≤ c.clock.vStc
  behind : ∀ g, g < c.layout.nbPrograms → c.pendingDiscontinuity = true ∨ PcrBehind c g

/-- The clocks are not set. -/
def Stopped (c : Core μ) : Prop :=
  c.clock.vStc = noptsValue ∧ c.clock.physicalStc ≤ noptsValue

/-- The invariant: state and past. -/
structure Ready (c : Core μ) (past : List Happening) : Prop where
  clocks : Stopped c ∨ Ahead c
  /-- While the flag is set there is no second program that could miss it. -/
  sole : c.pendingDiscontinuity = true → c.layout.nbPrograms ≤ 1
  owed : ∀ g, g < c.layout.nbPrograms → Owed g past → c.pendingDiscontinuity = true

/-- What the invariant reads of a core is the same. -/
structure SameSignals (c d : Core μ) : Prop where
  setUp : SameSetUp c d
  vStc : d.clock.vStc = c.clock.vStc
  physicalStc : d.clock.physicalStc = c.clock.physicalStc
  stcBase : d.clock.stcBase = c.clock.stcBase
  programs : d.programs = c.programs
  pending : d.pendingDiscontinuity = c.pendingDiscontinuity
  out : d.out = c.out

variable {d : Core μ}

theorem Beside.sameSignals (h : Beside c d) : SameSignals c d :=
  ⟨h.sameSetUp, by rw [h.clock], by rw [h.clock], by rw [h.clock], h.programs, h.pending, h.out⟩

theorem Still.sameSignals {t : Tsshaper μ} (h : Still s t) (hset : SameSetUp s.core t.core) :
    SameSignals s.core t.core := by
  obtain ⟨m, hclock⟩ := h.clock
  exact ⟨hset, by rw [hclock], by rw [hclock], by rw [hclock], h.programs, h.pending, h.out⟩

theorem PcrBehind.same (h : PcrBehind c g)
    (hlast : (d.programs g).lastPcrVal = (c.programs g).lastPcrVal)
    (hideal : pcrIdeal c ≤ pcrIdeal d) : PcrBehind d g := by
  unfold PcrBehind
  rw [hlast]
  exact h.imp_right fun hlt => Int.lt_of_lt_of_le hlt hideal

theorem Ready.same (h : Ready c past) (hsame : SameSignals c d) : Ready d past := by
  have hideal : pcrIdeal c ≤ pcrIdeal d := by
    unfold pcrIdeal
    rw [hsame.physicalStc, hsame.setUp.cfg]
  refine ⟨?_, ?_, ?_⟩
  · rcases h.clocks with hstop | hahead
    · refine .inl ⟨hsame.vStc.trans hstop.1, ?_⟩
      rw [hsame.physicalStc]
      exact hstop.2
    · refine .inr ⟨?_, ?_, ?_⟩
      · rw [hsame.vStc, hsame.stcBase]
        exact hahead.logical
      · rw [hsame.vStc, hsame.physicalStc]
        exact hahead.physical
      · intro g hg
        rw [hsame.setUp.layout] at hg
        rw [hsame.pending]
        exact (hahead.behind g hg).imp_right fun hb =>
          hb.same (by rw [hsame.programs]) hideal
  · rw [hsame.pending, hsame.setUp.layout]
    exact h.sole
  · rw [hsame.pending, hsame.setUp.layout]
    exact h.owed

theorem Ahead.slot_clock (h : Ahead c) (hset : noptsValue < c.clock.physicalStc) :
    nextPhysicalStc c = c.clock.physicalStc + c.cfg.ticksPerPacket ∧
      (advanceStc c.cfg c.clock).vStc = (advanceStc c.cfg c.clock).stcBase ∧
      nextPhysicalStc c ≤ (advanceStc c.cfg c.clock).vStc := by
  have hlogical := h.logical
  have hphysical := h.physical
  have hnext : nextPhysicalStc c = c.clock.physicalStc + c.cfg.ticksPerPacket :=
    if_neg (Int.ne_of_gt hset)
  have hbase : ¬ c.clock.stcBase = noptsValue := by omega
  refine ⟨hnext, ?_, ?_⟩
  · unfold advanceStc
    rw [if_neg hbase]
  · unfold advanceStc
    rw [if_neg hbase, hnext]
    dsimp only
    split <;> omega

theorem Ahead.slot (h : Ahead c) (hset : noptsValue < c.clock.physicalStc)
    (hclock : d.clock = (advanceStc c.cfg c.clock).nextSlot c.cfg (nextPhysicalStc c))
    (hbehind : ∀ g, g < d.layout.nbPrograms → d.pendingDiscontinuity = true ∨ PcrBehind d g) :
    Ahead d := by
  obtain ⟨-, hlogical, hphysical⟩ := h.slot_clock hset
  refine ⟨?_, ?_, hbehind⟩
  · rw [hclock]
    exact hlogical
  · rw [hclock]
    exact hphysical

/-- **One slot**: its PCR, if it sends one, is signalled, and the invariant is kept. -/
theorem Ready.slot (si : SiCallback μ) (h : Ready c past) (hpos : 0 < c.cfg.ticksPerPacket)
    (hset : noptsValue < c.clock.physicalStc) :
    (pcrsSent c (tssStepInternal si c) = [] ∧ Ready (tssStepInternal si c) past) ∨
      ∃ p, pcrsSent c (tssStepInternal si c) = [p] ∧ Signalled past (.pcr p (pcrIdeal c)) ∧
        Ready (tssStepInternal si c) (past ++ [.pcr p (pcrIdeal c)]) := by
  by_cases hdue : Due c
  · have hahead : Ahead c := h.clocks.resolve_left fun hstop => absurd hstop.2 (Int.not_le.mpr hset)
    have hclock := slot_clock si hdue
    obtain ⟨hcfg, hlayout⟩ := slot_sameSetUp si c
    -- the next slot's ideal PCR is ahead of everything sent up to this one
    have hideal : pcrIdeal c < pcrIdeal (tssStepInternal si c) := by
      have hnext := (hahead.slot_clock hset).1
      unfold pcrIdeal
      rw [hclock, hcfg]
      show _ < nextPhysicalStc c + _
      omega
    rcases slot_pcrs si hdue with ⟨hprograms, hpending, hnone⟩ | ⟨g, hg, hpending, hlast, hone⟩
    · refine .inl ⟨hnone, .inr (hahead.slot hset hclock ?_), ?_, ?_⟩
      · intro k hk
        rw [hlayout] at hk
        rw [hpending]
        exact (hahead.behind k hk).imp_right fun hb =>
          hb.same (by rw [hprograms]) (Int.le_of_lt hideal)
      · rw [hpending, hlayout]
        exact h.sole
      · rw [hpending, hlayout]
        exact h.owed
    · have hvalue : pcrOf c g = pcrIdeal c := pcrOf_ideal (hahead.behind g hg)
      have hother : ∀ k, k < c.layout.nbPrograms → k ≠ g → c.pendingDiscontinuity ≠ true := by
        intro k hk hkg hpend
        have hle := h.sole hpend
        omega
      refine .inr ⟨_, hone, ⟨h.owed g hg, hvalue⟩, .inr (hahead.slot hset hclock ?_), ?_, ?_⟩
      · intro k hk
        rw [hlayout] at hk
        refine .inr ?_
        by_cases hkg : k = g
        · refine .inr ?_
          rw [hlast, if_pos hkg, hvalue]
          exact hideal
        · have hb := (hahead.behind k hk).resolve_left (hother k hk hkg)
          exact hb.same (by rw [hlast, if_neg hkg]) (Int.le_of_lt hideal)
      · rw [hpending]
        exact fun hfalse => by cases hfalse
      · intro k hk howed
        rw [hlayout] at hk
        rcases since_snoc howed with hjump | ⟨hold, hstop⟩
        · exact hjump.elim
        · have hkg : k ≠ g := fun hkg => hstop hkg.symm
          exact absurd (h.owed k hk hold) (hother k hk hkg)
  · have hsame := tssStepInternal_notDue si hdue
    refine .inl ⟨?_, ?_⟩
    · rw [hsame]
      unfold pcrsSent
      rw [drop_length]
      rfl
    · rw [hsame]
      exact h

/-! ## Jumps -/

theorem anchorAt_hard (h : s.core.clock.vStc ≠ noptsValue) (dts : Int) :
    (anchorAt s dts).core.clock.vStc = s.core.clock.vStc ∧
      (anchorAt s dts).core.clock.physicalStc = s.core.clock.physicalStc ∧
      (anchorAt s dts).core.clock.stcBase = s.core.clock.stcBase ∧
      (anchorAt s dts).core.pendingDiscontinuity = true ∧
      (anchorAt s dts).core.out = s.core.out := by
  dsimp only [anchorAt, restartPids]
  rw [if_neg h]
  exact ⟨rfl, rfl, rfl, rfl, rfl⟩

theorem anchorAt_first (h : s.core.clock.vStc = noptsValue) (dts : Int) :
    (anchorAt s dts).core.clock.vStc = (anchorAt s dts).core.clock.stcBase ∧
      (anchorAt s dts).core.clock.physicalStc = (anchorAt s dts).core.clock.vStc ∧
      (anchorAt s dts).core.programs = s.core.programs ∧
      (anchorAt s dts).core.pendingDiscontinuity = s.core.pendingDiscontinuity ∧
      (anchorAt s dts).core.out = s.core.out := by
  dsimp only [anchorAt, restartPids]
  rw [if_pos h]
  exact ⟨rfl, rfl, rfl, rfl, rfl⟩

theorem ready_of_pending (hlogical : c.clock.vStc = c.clock.stcBase)
    (hphysical : c.clock.physicalStc ≤ c.clock.vStc) (hpending : c.pendingDiscontinuity = true)
    (hsole : c.layout.nbPrograms ≤ 1) (past : List Happening) : Ready c past :=
  ⟨.inr ⟨hlogical, hphysical, fun _ _ => .inl hpending⟩, fun _ => hsole, fun _ _ _ => hpending⟩

theorem pcrsSent_none (h : d.out = c.out) : pcrsSent c d = [] := by
  unfold pcrsSent
  rw [h, drop_length]
  rfl

theorem happens_silent {si : SiCallback μ} {e : Event}
    (h : (eventStep si s e).core.out = s.core.out) :
    happens si s e = if HardJump s e then [.jumped] else [] := by
  unfold happens
  rw [pcrsSent_none h]
  exact append_nil _

theorem HardJump.jumps {e : Event} (h : HardJump s e) : Jumps s e := by
  cases e with
  | enqueueDts pidNum dts isKey =>
    obtain ⟨i, htrans | ⟨hanchor, -⟩⟩ := h
    · exact ⟨i, .inr htrans⟩
    · exact ⟨i, .inl hanchor⟩
  | _ => exact h

section Dts

variable {s : Tsshaper μ} {past : List Happening} {pidNum : Nat} {dts : Int} {isKey : Bool}
  {i : Nat}

theorem arrived_sameSignals (s : Tsshaper μ) (i : Nat) (dts : Int) :
    SameSignals s.core (arrive (resync s i dts) i dts).core := by
  have hresync : Still s (resync s i dts) := ⟨rfl, ⟨_, rfl⟩, rfl, rfl, rfl⟩
  exact (hresync.trans (arrive_still _ i dts)).sameSignals ⟨rfl, rfl⟩

/-- **A translation.** -/
theorem ready_translated (h : TranslatesAt s pidNum dts isKey i)
    (hsole : s.core.layout.nbPrograms ≤ 1) (past : List Happening) :
    (tsshaperEnqueueDts s pidNum dts isKey).core.out = s.core.out ∧
      Ready (tsshaperEnqueueDts s pidNum dts isKey).core past := by
  have hlayout := (enqueueDts_sameSetUp s pidNum dts isKey).layout
  have hout := (noteFrame_still s i isKey).out
  obtain ⟨p, jump, -, heq⟩ := tssVoterProcess_translated h.2
  rw [enqueueDts_translated h, heq] at hlayout ⊢
  exact ⟨hout, ready_of_pending rfl (Int.le_refl _) rfl (by rw [hlayout]; exact hsole) past⟩

/-- **An anchor**, the first one or a hard one. -/
theorem Ready.anchored (hready : Ready s.core past) (h : AnchorsAt s pidNum dts isKey i)
    (hsole : s.core.clock.vStc ≠ noptsValue → s.core.layout.nbPrograms ≤ 1)
    (hfresh : s.core.clock.vStc = noptsValue →
      ∀ g, g < s.core.layout.nbPrograms → (s.core.programs g).lastPcrVal = noptsValue) :
    (tsshaperEnqueueDts s pidNum dts isKey).core.out = s.core.out ∧
      (s.core.clock.vStc = noptsValue → Ready (tsshaperEnqueueDts s pidNum dts isKey).core past) ∧
      (s.core.clock.vStc ≠ noptsValue →
        ∀ past', Ready (tsshaperEnqueueDts s pidNum dts isKey).core past') := by
  have hlayout := (enqueueDts_sameSetUp s pidNum dts isKey).layout
  have hnote := (noteFrame_still s i isKey).sameSignals (noteFrame_sameSetUp s i isKey)
  have harrived := arrived_sameSignals (anchorAt (noteFrame s i isKey).1 dts) i dts
  rw [← enqueueDts_anchored h] at harrived
  refine ⟨?_, ?_, ?_⟩
  · by_cases hstc : s.core.clock.vStc = noptsValue
    · obtain ⟨-, -, -, -, hout⟩ := anchorAt_first (hnote.vStc.trans hstc) dts
      exact harrived.out.trans (hout.trans hnote.out)
    · have hstc' : (noteFrame s i isKey).1.core.clock.vStc ≠ noptsValue := by
        rw [hnote.vStc]
        exact hstc
      obtain ⟨-, -, -, -, hout⟩ := anchorAt_hard hstc' dts
      exact harrived.out.trans (hout.trans hnote.out)
  · intro hstc
    obtain ⟨hlogical, hphysical, hprograms, hpending, -⟩ :=
      anchorAt_first (hnote.vStc.trans hstc) dts
    have hpend := harrived.pending.trans (hpending.trans hnote.pending)
    refine ⟨.inr ⟨?_, ?_, ?_⟩, ?_, ?_⟩
    · rw [harrived.vStc, harrived.stcBase]
      exact hlogical
    · rw [harrived.vStc, harrived.physicalStc, hphysical]
    · intro g hg
      rw [hlayout] at hg
      refine .inr (.inl ?_)
      rw [harrived.programs, hprograms, hnote.programs]
      exact hfresh hstc g hg
    · rw [hpend, hlayout]
      exact hready.sole
    · rw [hpend, hlayout]
      exact hready.owed
  · intro hstc past'
    have hstc' : (noteFrame s i isKey).1.core.clock.vStc ≠ noptsValue := by
      rw [hnote.vStc]
      exact hstc
    obtain ⟨hv, hp, hb, hpending, -⟩ := anchorAt_hard hstc' dts
    have hahead : Ahead s.core := hready.clocks.resolve_left fun hstop => hstc hstop.1
    refine ready_of_pending ?_ ?_ (harrived.pending.trans hpending) ?_ past'
    · rw [harrived.vStc, harrived.stcBase, hv, hb, hnote.vStc, hnote.stcBase]
      exact hahead.logical
    · rw [harrived.vStc, harrived.physicalStc, hv, hp, hnote.vStc, hnote.physicalStc]
      exact hahead.physical
    · rw [hlayout]
      exact hsole hstc

/-- **One DTS**: nothing is sent, and the invariant is kept, with the jump if there is one. -/
theorem Ready.enqueueDts (hready : Ready s.core past)
    (horder : Orderly s (.enqueueDts pidNum dts isKey)) :
    (tsshaperEnqueueDts s pidNum dts isKey).core.out = s.core.out ∧
      Ready (tsshaperEnqueueDts s pidNum dts isKey).core
        (past ++ if HardJump s (.enqueueDts pidNum dts isKey) then [.jumped] else []) := by
  obtain ⟨hsole, hfresh⟩ := horder
  by_cases hjumps : Jumps s (.enqueueDts pidNum dts isKey)
  · obtain ⟨i, hanchor | htrans⟩ := hjumps
    · have hhard : s.core.clock.vStc ≠ noptsValue → HardJump s (.enqueueDts pidNum dts isKey) :=
        fun hstc => ⟨i, .inr ⟨hanchor, hstc⟩⟩
      obtain ⟨hout, hfirst, hagain⟩ := hready.anchored hanchor (fun hstc => hsole (hhard hstc))
        (hfresh ⟨i, .inl hanchor⟩)
      refine ⟨hout, ?_⟩
      by_cases hstc : s.core.clock.vStc = noptsValue
      · have hnot : ¬ HardJump s (.enqueueDts pidNum dts isKey) := by
          rintro ⟨j, htrans | ⟨-, hset⟩⟩
          · obtain rfl := hanchor.1.unique htrans.1.1
            cases hanchor.2.symm.trans htrans.1.2.1
          · exact hset hstc
        rw [if_neg hnot, append_nil]
        exact hfirst hstc
      · exact hagain hstc _
    · exact ready_translated htrans (hsole ⟨i, .inl htrans⟩) _
  · have hstill := enqueueDts_still hjumps
    have hnot : ¬ HardJump s (.enqueueDts pidNum dts isKey) := fun h => hjumps h.jumps
    rw [if_neg hnot, append_nil]
    exact ⟨hstill.out, hready.same (hstill.sameSignals (enqueueDts_sameSetUp s pidNum dts isKey))⟩

end Dts

theorem Ready.fuse (h : Ready c past) (hset : c.clock.vStc ≠ noptsValue) :
    (driveFuse { c with inDrive := true }).out = c.out ∧
      Ready (driveFuse { c with inDrive := true }) past := by
  have hahead : Ahead c := h.clocks.resolve_left fun hstop => hset hstop.1
  unfold driveFuse
  dsimp only
  split
  · rename_i hblows
    have hlate : driveTarget c - c.clock.vStc > sysClockFreq * 3 := of_decide_eq_true hblows
    have hphysical := hahead.physical
    refine ⟨rfl, .inr ⟨rfl, Int.le_refl _, ?_⟩, h.sole, h.owed⟩
    intro g hg
    refine (hahead.behind g hg).imp_right fun hb => hb.same rfl ?_
    show c.clock.physicalStc + pcrTicks c.cfg ≤ driveTarget c + pcrTicks c.cfg
    unfold sysClockFreq at hlate
    omega
  · exact ⟨rfl, h.same ⟨⟨rfl, rfl⟩, rfl, rfl, rfl, rfl, rfl, rfl⟩⟩

/-! ## Runs -/

/-- **One event**, for the discontinuities. -/
theorem signal_step (si : SiCallback μ) (s : Tsshaper μ) (past : List Happening) (e : Event)
    (h : 0 < s.core.cfg.ticksPerPacket ∧ Ready s.core past ∧ Throughout Signalled past)
    (horder : Orderly s e) :
    0 < (signalPush si s e).1.core.cfg.ticksPerPacket ∧
      Ready (signalPush si s e).1.core (past ++ (signalPush si s e).2) ∧
      Throughout Signalled (past ++ (signalPush si s e).2) := by
  obtain ⟨hpos, hready, hall⟩ := h
  show 0 < (eventStep si s e).core.cfg.ticksPerPacket ∧
    Ready (eventStep si s e).core (past ++ happens si s e) ∧
    Throughout Signalled (past ++ happens si s e)
  refine ⟨by rw [(eventStep_sameSetUp si s e).cfg]; exact hpos, ?_⟩
  -- an event that sends nothing and does not jump leaves the past as it is
  have hsilent : (eventStep si s e).core.out = s.core.out → ¬ HardJump s e →
      Ready (eventStep si s e).core past →
      Ready (eventStep si s e).core (past ++ happens si s e) ∧
        Throughout Signalled (past ++ happens si s e) := by
    intro hout hcalm hkept
    rw [happens_silent hout, if_neg hcalm, append_nil]
    exact ⟨hkept, hall⟩
  cases e with
  | enqueueDts pidNum dts isKey =>
    obtain ⟨hout, hkept⟩ := hready.enqueueDts horder
    have hsent : happens si s (.enqueueDts pidNum dts isKey) =
        if HardJump s (.enqueueDts pidNum dts isKey) then [.jumped] else [] := happens_silent hout
    rw [hsent]
    refine ⟨hkept, ?_⟩
    split
    · exact throughout_snoc hall trivial
    · rw [append_nil]
      exact hall
  | enqueueTs pidNum pkt =>
    have hbeside := tsshaperEnqueueTs_beside s.core pidNum pkt
    exact hsilent hbeside.out id (hready.same hbeside.sameSignals)
  | enterDrive =>
    obtain ⟨hout, hkept⟩ := hready.fuse horder
    exact hsilent hout id hkept
  | slot =>
    have hnojump : happens si s .slot =
        (pcrsSent s.core (tssStepInternal si s.core)).map (.pcr · (pcrIdeal s.core)) := rfl
    rw [hnojump]
    rcases hready.slot si hpos horder with ⟨hnone, hkept⟩ | ⟨p, hone, hsignalled, hkept⟩
    · rw [hnone, map_nil, append_nil]
      exact ⟨hkept, hall⟩
    · rw [hone]
      exact ⟨hkept, throughout_snoc hall hsignalled⟩
  | leaveDrive | enterDrain =>
    exact hsilent rfl id (hready.same ⟨⟨rfl, rfl⟩, rfl, rfl, rfl, rfl, rfl, rfl⟩)
  | resetTimeline =>
    exact hsilent rfl id ⟨.inl ⟨rfl, Int.le_refl _⟩, hready.sole, hready.owed⟩

/-- **Discontinuities are signalled**, in every run of a shaper at a rate of at most one packet per
    tick whose events are orderly: after a translation or a hard re-anchor the first PCR packet of
    each program carries the indicator, and every PCR is the ideal one of its slot. -/
theorem discontinuity_signalled (si : SiCallback μ) (s : Tsshaper μ) (hs : SetUp s)
    (hrate : 0 < s.core.cfg.muxRate) (hle : (s.core.cfg.muxRate : Int) ≤ Config.packetTicks)
    (events : List Event) (horder : Along Orderly (eventStep si) s events) :
    Throughout Signalled (run (signalPush si) s events).2 := by
  have hstart : Ready s.core [] := by
    refine ⟨.inl ?_, ?_, fun g _ howed => absurd howed (not_since_nil _ _)⟩
    · unfold Stopped
      rw [hs.clock]
      exact ⟨rfl, Int.le_refl _⟩
    · rw [hs.pending]
      exact fun hfalse => by cases hfalse
  exact (run_history (R := Orderly) (signal_step si) events s []
    ⟨Config.ticksPerPacket_pos hrate hle, hstart, throughout_nil _⟩ horder).2.2

/-- One program, a PCR in every slot: anchored, driven, re-anchored and driven on. -/
def reanchoredRun : List Event :=
  [.resetTimeline, .enqueueDts 0 0 true, .enterDrive, .slot, .slot, .leaveDrive,
    .enqueueDts 0 0 true, .enterDrive, .slot, .slot]

theorem reanchoredRun_signalled :
    Throughout Signalled (run (signalPush noTables)
      ⟨Timeline.init, oneStream ⟨10000000, 35, 0, 0, 1⟩ 1⟩ reanchoredRun).2 :=
  discontinuity_signalled noTables _ (oneStream_setUp _ _) (by decide) (by decide) _
    (by decide +kernel)

/-- Two programs with a PCR PID of their own, and a PCR of each in every second slot. -/
def twoPrograms : Core Unit :=
  let c := oneStream ⟨10000000, 35, 4000, 0, 1⟩ 2
  { c with
    layout := { c.layout with nbPrograms := 2 }
    programs := fun g => { c.programs g with nextPcrPacket := g } }

/-- **The second program is not told.**  The timeline is translated two seconds back.  The first
    program's next PCR carries the indicator and clears the flag; the second program's does not, and
    is pushed one tick past its last one, two seconds ahead of the clock. -/
theorem secondProgram_misses :
    let past := (run (signalPush noTables) ⟨Timeline.init, twoPrograms⟩
      [.enqueueDts 0 (3000 * 27000) true, .enterDrive, .slot, .slot, .leaveDrive,
        .enqueueDts 0 (1000 * 27000) false, .enqueueDts 0 (1040 * 27000) false,
        .enqueueDts 0 (1080 * 27000) false, .enterDrive, .slot, .slot]).2
    past = [.pcr ⟨0, 86400237, false⟩ 86400237, .pcr ⟨1, 86404297, false⟩ 86404297, .jumped,
      .pcr ⟨0, 32408358, true⟩ 32408358, .pcr ⟨1, 86404298, false⟩ 32412418] ∧
      ¬ Throughout Signalled past := by
  intro past
  have hpast : past = [.pcr ⟨0, 86400237, false⟩ 86400237, .pcr ⟨1, 86404297, false⟩ 86404297,
      .jumped, .pcr ⟨0, 32408358, true⟩ 32408358, .pcr ⟨1, 86404298, false⟩ 32412418] := by
    decide +kernel
  refine ⟨hpast, fun hall => ?_⟩
  rw [hpast] at hall
  obtain ⟨hflag, hvalue⟩ := hall [_, _, _, _] _ [] rfl
  exact absurd hvalue (by decide)

end TsAnalyzer.Shaper
