/-
  Does the scheduler keep the bound on PSI?

  After two PSI packets in a row the tables are no longer asked first, and every other candidate
  replaces a PSI best.  But nothing keeps a PSI candidate from replacing another best, so it matters
  who is listed last.
-/
import TsAnalyzer.Lib.Election
import TsAnalyzer.Shaper.Buckets

namespace TsAnalyzer.Shaper

open Lib

variable {μ : Type}

/-! ## Relaxed PIDs -/

/-- The fields of a PID that decide its rank among the candidates. -/
structure Mood where
  type : PidType
  bitrateBps : Int
  auEvents : Option (List AccessUnit)
  telSecSlackMin27m : Int
  continuousFullnessBits : Int

def PidState.mood (p : PidState) : Mood :=
  ⟨p.type, p.bitrateBps, p.auEvents, p.telSecSlackMin27m, p.continuousFullnessBits⟩

/-- Nothing presses: no access unit waits, no slack is short, and a PSI PID has no fullness. -/
structure Mood.Relaxed (m : Mood) : Prop where
  units : ∀ aus, m.auEvents = some aus → aus = []
  slack : sysClockFreq.tdiv 100 ≤ m.telSecSlackMin27m
  nonneg : 0 ≤ m.continuousFullnessBits
  psi : m.type = .psi → m.continuousFullnessBits = 0 ∧ m.bitrateBps = 0

def StaysRelaxed (p q : PidState) : Prop := p.mood.Relaxed → q.mood.Relaxed

variable {p q : PidState}

theorem staysRelaxed_of_mood (h : q.mood = p.mood) : StaysRelaxed p q := by
  intro hp
  rw [h]
  exact hp

theorem staysRelaxed_chain : Chain StaysRelaxed where
  refl _ := id
  trans h h' := h' ∘ h

theorem enqueue_mood (vStc : Int) (p : PidState) (pkt : Packet) :
    (tssInternalEnqueuePacket vStc p pkt).1.mood = p.mood := by
  have hwait : ∀ q isPcr, (waitForIdr vStc q isPcr).1.mood = q.mood := by
    intro q isPcr
    unfold waitForIdr
    split
    · split
      · rfl
      · split <;> rfl
    · rfl
  have hshed : ∀ q isPcr isPusi, (shed vStc q isPcr isPusi).1.mood = q.mood := by
    intro q isPcr isPusi
    unfold shed
    split
    · split
      · split <;> rfl
      · rfl
      · rfl
    · rfl
  have hstore : ∀ q drop, (storePacket q pkt drop).mood = q.mood := by
    intro q drop
    unfold storePacket
    split <;> rfl
  unfold tssInternalEnqueuePacket
  dsimp only
  rw [hstore]
  split
  · exact hwait _ _
  · exact (hshed _ _ _).trans (hwait _ _)

theorem takePacket_mood (p : PidState) : (takePacket p).2.mood = p.mood := by
  unfold takePacket
  split <;> rfl

theorem measurePid_relaxed (p : PidState) : StaysRelaxed p (measurePid p) := by
  intro h
  have hslack : sysClockFreq.tdiv 100 ≤ 10 * sysClockFreq := by decide
  unfold measurePid
  dsimp only
  split
  · split <;> exact ⟨h.units, hslack, h.nonneg, h.psi⟩
  · exact ⟨h.units, hslack, h.nonneg, h.psi⟩

theorem staysRelaxed_after : AfterStable StaysRelaxed where
  toChain := staysRelaxed_chain
  enqueue _ _ _ := staysRelaxed_of_mood (enqueue_mood _ _ _)
  panic p := by
    refine staysRelaxed_of_mood ?_
    unfold panicPid
    split
    · split
      · rfl
      · split <;> rfl
    · rfl
  decode vStc p := by
    intro h
    unfold decodePid
    split
    · exact h
    · rename_i aus haus
      -- there is no unit to remove
      have hnil : aus = [] := h.units aus haus
      subst hnil
      exact ⟨fun us hus => (Option.some.inj hus).symm, h.slack, h.nonneg, h.psi⟩
  measure := measurePid_relaxed

theorem staysRelaxed_input : InputStable StaysRelaxed where
  note _ _ := staysRelaxed_of_mood rfl
  resume _ := staysRelaxed_of_mood rfl
  arrive _ _ _ := staysRelaxed_of_mood rfl
  resync _ := staysRelaxed_of_mood rfl
  fuse _ := staysRelaxed_of_mood rfl
  reset _ := staysRelaxed_of_mood rfl
  vote physicalStc master p delta := by
    obtain ⟨average, state, streak, jump, start, offset, heq⟩ :=
      voterPid_fields physicalStc master p delta
    rw [heq]
    exact staysRelaxed_of_mood rfl

theorem staysRelaxed_jump : JumpStable StaysRelaxed where
  translate _ := staysRelaxed_of_mood rfl
  reanchor p := by
    intro h
    refine ⟨fun aus haus => ?_, h.slack, Int.le_refl 0, fun hpsi => ⟨rfl, (h.psi hpsi).2⟩⟩
    obtain ⟨-, -, hnil⟩ := Option.map_eq_some_iff.mp haus
    exact hnil.symm
  restart _ := staysRelaxed_of_mood rfl

theorem newPid_relaxed (cfg : Config) (pidNum : Nat) (type : PidType) (br : Nat) :
    (newPid cfg pidNum type br).mood.Relaxed := by
  have hrate : 0 ≤ (pidRates cfg br type).bitrateBps := by
    cases type with
    | video => exact videoRefillRate_nonneg cfg br
    | _ => exact Int.le_refl 0
  refine ⟨fun aus haus => ?_, ?_, ?_, ?_⟩
  · have hunits : (if type = .video ∨ type = .audio then some [] else none) = some aus := haus
    split at hunits
    · exact (Option.some.inj hunits).symm
    · cases hunits
  · show sysClockFreq.tdiv 100 ≤ 10 * sysClockFreq
    decide
  · exact Int.tdiv_nonneg (Int.mul_nonneg hrate (by decide)) (by decide)
  · rintro rfl
    exact ⟨rfl, rfl⟩

/-! ## A slot keeps PIDs relaxed -/

/-- What the walk changes of a PID without access units: its pace and the urgent flag. -/
def Repaced (p q : PidState) : Prop :=
  ∃ integral tokens urgent,
    q = { p with piIntegral := integral, pacingTokens := tokens, isUrgent := urgent }

theorem Repaced.mood (h : Repaced p q) : q.mood = p.mood := by
  obtain ⟨integral, tokens, urgent, rfl⟩ := h
  rfl

theorem repaced_chain : Chain Repaced where
  refl _ := ⟨_, _, _, rfl⟩
  trans := by
    rintro p _ _ ⟨integral, tokens, urgent, rfl⟩ ⟨integral', tokens', urgent', rfl⟩
    exact ⟨integral', tokens', urgent', rfl⟩

theorem pacePid_repaced (cfg : Config) (p : PidState) : Repaced p (pacePid cfg p).1 := by
  unfold pacePid
  split
  · exact ⟨_, _, _, rfl⟩
  · exact repaced_chain.refl p

theorem resetPace_repaced (p : PidState) : Repaced p (resetPace p) := by
  unfold resetPace
  split
  · exact ⟨_, _, _, rfl⟩
  · exact repaced_chain.refl p

theorem drainPace_repaced (inDrain : Bool) (p : PidState) : Repaced p (drainPace inDrain p) := by
  unfold drainPace
  split
  · exact ⟨_, _, _, rfl⟩
  · exact repaced_chain.refl p

/-- The deadline that every relaxed PID has. -/
def relaxedDeadline (c : Core μ) : Int := c.clock.vStc + c.cfg.muxDelay27m

theorem deadlineOf_relaxed (c : Core μ) (h : p.mood.Relaxed) (ratio : Int) :
    deadlineOf c p ratio = ({ p with isUrgent := false }, ⟨relaxedDeadline c, false⟩) := by
  unfold deadlineOf
  dsimp only
  split
  · rename_i au aus haus
    cases h.units _ haus
  · rfl

instance (p : PidState) : Decidable (Eligible p) :=
  decidable_of_iff (p.tbFullnessBits + tsPacketBits ≤ p.tbSizeBits ∧
    (p.isPanicMode = true ∨ tsPacketBits ≤ p.tokensBits)) ⟨fun h => ⟨h.1, h.2⟩, fun h => ⟨h.1, h.2⟩⟩

/-- A packet waits, and both gates are open. -/
def Sendable (p : PidState) : Prop := hasPacket p = true ∧ Eligible p
deriving Decidable

theorem Repaced.sendable (h : Repaced p q) : Sendable q ↔ Sendable p := by
  obtain ⟨integral, tokens, urgent, rfl⟩ := h
  exact ⟨fun hs => ⟨hs.1, hs.2.1, hs.2.2⟩, fun hs => ⟨hs.1, hs.2.1, hs.2.2⟩⟩

/-- **One visit** of the walk to a relaxed PID: pace and urgency aside it stays as it is, and it is
    a candidate if it is ready. -/
theorem considerPid_relaxed (c : Core μ) (w : (Nat → PidState) × Best) {i : Nat}
    (h : (w.1 i).mood.Relaxed) :
    Repaced (w.1 i) (considerPid c w i).1 ∧
      (considerPid c w i).2 = if Sendable (w.1 i) then
        challenge c (w.2.pid.map fun b => (w.1 b).type) i (considerPid c w i).1
          ⟨relaxedDeadline c, false⟩ w.2
      else w.2 := by
  have hpaced := pacePid_repaced c.cfg (w.1 i)
  have hrelaxed : (pacePid c.cfg (w.1 i)).1.mood.Relaxed := by
    rw [hpaced.mood]
    exact h
  have hdue := deadlineOf_relaxed c hrelaxed (pacePid c.cfg (w.1 i)).2
  have hlast : Repaced (w.1 i)
      (drainPace c.inDrain { (pacePid c.cfg (w.1 i)).1 with isUrgent := false }) :=
    repaced_chain.trans (repaced_chain.trans hpaced ⟨_, _, _, rfl⟩) (drainPace_repaced c.inDrain _)
  unfold considerPid
  by_cases hpacket : hasPacket (w.1 i) = true
  · rw [if_neg (not_not.mpr hpacket)]
    dsimp only
    by_cases hroom : (pacePid c.cfg (w.1 i)).1.tbFullnessBits + tsPacketBits >
        (pacePid c.cfg (w.1 i)).1.tbSizeBits
    · have hnot : ¬ Sendable (w.1 i) := by
        rw [← hpaced.sendable]
        exact fun hs => absurd hs.2.room (Int.not_le.mpr hroom)
      rw [if_pos hroom, if_neg hnot]
      exact ⟨hpaced, rfl⟩
    · rw [if_neg hroom, hdue]
      dsimp only
      generalize
        drainPace c.inDrain { (pacePid c.cfg (w.1 i)).1 with isUrgent := false } = q at hlast ⊢
      by_cases hgate : ¬ q.isPanicMode = true ∧ q.tokensBits < tsPacketBits
      · have hnot : ¬ Sendable (w.1 i) := by
          rw [← hlast.sendable]
          exact fun hs => hs.2.tokens.elim hgate.1 (Int.not_le.mpr hgate.2)
        rw [if_pos hgate, if_neg hnot]
        exact ⟨hlast, rfl⟩
      · have hyes : Sendable (w.1 i) := by
          refine ⟨hpacket, ?_, ?_⟩
          · obtain ⟨integral, tokens, urgent, heq⟩ := hpaced
            rw [heq] at hroom
            exact Int.not_lt.mp hroom
          · obtain ⟨integral, tokens, urgent, rfl⟩ := hlast
            by_cases hpanic : (w.1 i).isPanicMode = true
            · exact .inl hpanic
            · exact .inr (Int.not_lt.mp fun hlt => hgate ⟨hpanic, hlt⟩)
        rw [if_neg hgate, if_pos hyes]
        exact ⟨hlast, rfl⟩
  · have hnot : ¬ Sendable (w.1 i) := fun hs => hpacket hs.1
    rw [if_pos hpacket, if_neg hnot]
    exact ⟨resetPace_repaced _, rfl⟩

theorem considerPid_staysRelaxed (c : Core μ) (w : (Nat → PidState) × Best) (i : Nat) :
    StaysRelaxed (w.1 i) (considerPid c w i).1 := by
  intro h
  rw [(considerPid_relaxed c w h).1.mood]
  exact h

theorem send_staysRelaxed (p : PidState) : StaysRelaxed p { chargePid (takePacket p).2 with
    continuousFullnessBits := max 0 ((takePacket p).2.continuousFullnessBits - tsPacketBits) } := by
  intro h
  rw [← takePacket_mood p] at h
  refine ⟨h.units, h.slack, Int.le_max_left _ _, fun hpsi => ⟨?_, (h.psi hpsi).2⟩⟩
  have hzero : (takePacket p).2.continuousFullnessBits = 0 := (h.psi hpsi).1
  show max 0 ((takePacket p).2.continuousFullnessBits - tsPacketBits) = 0
  rw [hzero]
  decide

theorem leakAll_mood (c : Core μ) (k : Nat) :
    (leakAll c k).mood = (c.pids k).mood ∧ (leakAll c k).burstCount = (c.pids k).burstCount := by
  unfold leakAll
  split
  · unfold mapPids
    split <;> exact ⟨rfl, rfl⟩
  · exact ⟨rfl, rfl⟩

/-- The core that the scheduler of a slot works on. -/
def opened (c : Core μ) : Core μ :=
  { c with clock := advanceStc c.cfg c.clock, pids := leakAll c }

theorem scheduled_staysRelaxed (c : Core μ) : Across StaysRelaxed c.pids (scheduled c).1.pids := by
  have hwalk : Across StaysRelaxed (leakAll c) (scheduled c).1.pids :=
    walk_across staysRelaxed_chain (considerPid_staysRelaxed (opened c))
  exact Across.trans staysRelaxed_chain (fun k => staysRelaxed_of_mood (leakAll_mood c k).1) hwalk

/-- **A slot** keeps PIDs relaxed. -/
theorem slot_staysRelaxed (si : SiCallback μ) (c : Core μ) :
    Across StaysRelaxed c.pids (tssStepInternal si c).pids := by
  have hchain := staysRelaxed_chain
  unfold tssStepInternal
  split
  · exact hchain.across _
  · have hemit : Across StaysRelaxed (scheduled c).1.pids
        (emit (scheduled c).1 (scheduled c).2).pids :=
      emit_across_of hchain (fun _ _ _ _ => staysRelaxed_of_mood rfl)
        (fun _ _ => staysRelaxed_of_mood rfl) (fun _ => staysRelaxed_of_mood rfl)
        send_staysRelaxed _ _
    have hrefill : ∀ (d : Core μ) (next : Int), Across StaysRelaxed d.pids (refillAll d next) :=
      fun d next => tssRefillTokensFlywheel_across hchain (fun _ _ => staysRelaxed_of_mood rfl)
        { d with clock := { d.clock with physicalStc := next } }
    exact (scheduled_staysRelaxed c).trans hchain (hemit.trans hchain ((hrefill _ _).trans hchain
      (postEmission_after staysRelaxed_after si _ _)))

theorem eventStep_staysRelaxed (si : SiCallback μ) (s : Tsshaper μ) (e : Event) :
    Across StaysRelaxed s.core.pids (eventStep si s e).core.pids := by
  by_cases hslot : e = .slot
  · subst hslot
    exact slot_staysRelaxed si s.core
  · exact eventStep_between staysRelaxed_after staysRelaxed_input staysRelaxed_jump si s hslot

/-! ## The walk is an election -/

/-- The election that the walk holds, once PSI has had its two packets. -/
def election (c : Core μ) : Election Nat where
  ready k := Sendable (leakAll c k)
  weight k := (c.pids k).continuousFullnessBits
  yields k := (c.pids k).type = .psi
  hot k := c.lastPid = some k ∧ (c.pids k).burstCount < 7

/-- Everybody has the same deadline: fullness decides, and then the burst. -/
def Fuller (c : Core μ) (i : Nat) (p : PidState) (best : Best) : Prop :=
  p.continuousFullnessBits > best.fullness ∨
    (p.continuousFullnessBits = best.fullness ∧ c.lastPid = some i ∧ p.burstCount < 7)
deriving Decidable

theorem fuller_none (c : Core μ) (i : Nat) (h : p.mood.Relaxed) : Fuller c i p Best.none := by
  have hnonneg : 0 ≤ p.continuousFullnessBits := h.nonneg
  refine .inl ?_
  show -1 < p.continuousFullnessBits
  omega

/-- The best so far is none, or a relaxed PID. -/
structure Best.Calm (best : Best) (deadline : Int) : Prop where
  deadline : best.deadline = deadline ∨ best = Best.none
  urgent : best.urgent = false

theorem earlier_relaxed (c : Core μ) (i : Nat) (h : p.mood.Relaxed) {best : Best}
    {deadline : Int} (hbest : best.Calm deadline) :
    earlier c i p ⟨deadline, false⟩ best = (decide (Fuller c i p best), deadline) := by
  have hslack : ¬ ((p.type = .audio ∨ p.type = .pcr) ∧
      p.telSecSlackMin27m < sysClockFreq.tdiv 100) := by
    rintro ⟨-, hlt⟩
    exact absurd h.slack (Int.not_le.mpr hlt)
  unfold earlier
  dsimp only
  rw [if_neg hslack]
  refine Prod.ext ?_ rfl
  dsimp only
  have hmargin : 0 ≤ sysClockFreq.tdiv 1000 := by decide
  rcases hbest.deadline with hd | rfl
  · have hdiff :
        (if best.deadline = farDeadline then (0 : Int) else deadline - best.deadline) = 0 := by
      split
      · rfl
      · omega
    have hequal : ¬ deadline < best.deadline - sysClockFreq.tdiv 1000 := by omega
    rw [hdiff, if_neg hequal, if_pos (by decide)]
    rfl
  · have hfuller := fuller_none c i h
    rw [decide_eq_true hfuller]
    have hdiff : (if Best.none.deadline = farDeadline then (0 : Int)
        else deadline - Best.none.deadline) = 0 := if_pos rfl
    rw [hdiff]
    split
    · rfl
    · rw [if_pos (by decide)]
      exact decide_eq_true hfuller

variable {c : Core μ}

theorem challenge_relaxed (hpsi : 2 ≤ c.psiConsecutiveCount) (bestType : Option PidType) (i : Nat)
    (h : p.mood.Relaxed) {best : Best} {deadline : Int} (hbest : best.Calm deadline) :
    challenge c bestType i p ⟨deadline, false⟩ best =
      if (bestType = some .psi ∧ p.type ≠ .psi) ∨ Fuller c i p best then
        ⟨some i, deadline, p.continuousFullnessBits, false⟩
      else best := by
  have hbound : ¬ (p.type = .psi ∧ c.psiConsecutiveCount < 2 ∧ bestType ≠ some .psi) := by
    rintro ⟨-, hlt, -⟩
    omega
  unfold challenge
  dsimp only
  rw [if_neg hbound]
  by_cases hyields : bestType = some .psi ∧ p.type ≠ .psi
  · have hwins : (bestType = some .psi ∧ p.type ≠ .psi) ∨ Fuller c i p best := .inl hyields
    have hover : decide (c.psiConsecutiveCount ≥ 2) = true := decide_eq_true hpsi
    rw [if_pos hyields, if_pos hwins]
    dsimp only
    rw [if_pos hover]
  · have hcalm : ¬ (false = true ∧ ¬ best.urgent = true) := by
      rintro ⟨hfalse, -⟩
      cases hfalse
    rw [if_neg hyields, if_neg hcalm, if_pos hbest.urgent.symm, earlier_relaxed c i h hbest]
    dsimp only
    by_cases hfuller : Fuller c i p best
    · have hwins : (bestType = some .psi ∧ p.type ≠ .psi) ∨ Fuller c i p best := .inr hfuller
      rw [if_pos (decide_eq_true hfuller), if_pos hwins]
    · rw [if_neg (Bool.eq_false_iff.mp (decide_eq_false hfuller)),
        if_neg (not_or.mpr ⟨hyields, hfuller⟩)]

/-- The walk has come as far as the election, whose champion is `best`. -/
structure Follows (c : Core μ) (w : (Nat → PidState) × Best) (best : Option Nat) : Prop where
  table : ∀ k, Repaced (leakAll c k) (w.1 k)
  pid : w.2.pid = best
  calm : w.2.Calm (relaxedDeadline (opened c))
  fullness : ∀ b, best = some b → w.2.fullness = (c.pids b).continuousFullnessBits
  none : best = none → w.2 = Best.none

variable {w : (Nat → PidState) × Best}

theorem Follows.mood {best : Option Nat} (h : Follows c w best) (k : Nat) :
    (w.1 k).mood = (c.pids k).mood ∧ (w.1 k).burstCount = (c.pids k).burstCount := by
  obtain ⟨hmood, hburst⟩ := leakAll_mood c k
  obtain ⟨integral, tokens, urgent, heq⟩ := h.table k
  rw [heq]
  exact ⟨hmood, hburst⟩

theorem Follows.beats {b : Nat} (h : Follows c w (some b)) {i : Nat} (hq : Repaced (w.1 i) q) :
    (((some b).map fun b => (w.1 b).type) = some .psi ∧ q.type ≠ .psi) ∨ Fuller (opened c) i q w.2 ↔
      (election c).Beats i b := by
  obtain ⟨hmood, hburst⟩ := h.mood i
  have htype : (w.1 b).type = (c.pids b).type := congrArg Mood.type (h.mood b).1
  obtain ⟨integral, tokens, urgent, rfl⟩ := hq
  have hqtype : (w.1 i).type = (c.pids i).type := congrArg Mood.type hmood
  have hqfull : (w.1 i).continuousFullnessBits = (c.pids i).continuousFullnessBits :=
    congrArg Mood.continuousFullnessBits hmood
  have hbest := h.fullness b rfl
  unfold Fuller Election.Beats
  dsimp only [election, opened]
  rw [hqfull, hbest, hqtype, hburst, Option.map_some, htype]
  simp only [Option.some.injEq, decide_eq_true_eq, decide_eq_false_iff_not, gt_iff_lt]

/-- **One visit** is one candidate. -/
theorem Follows.visit (hpsi : 2 ≤ c.psiConsecutiveCount) {best : Option Nat} (h : Follows c w best)
    {i : Nat} (hi : (c.pids i).mood.Relaxed) :
    Follows c (pickStep (opened c) w i) ((election c).challenge best i) := by
  have hrelaxed : (w.1 i).mood.Relaxed := by
    rw [(h.mood i).1]
    exact hi
  obtain ⟨hrepaced, hcandidate⟩ := considerPid_relaxed (opened c) w hrelaxed
  have hq : (considerPid (opened c) w i).1.mood.Relaxed := by
    rw [hrepaced.mood]
    exact hrelaxed
  have htable : ∀ k, Repaced (leakAll c k) ((pickStep (opened c) w i).1 k) := by
    intro k
    show Repaced (leakAll c k) (updPid w.1 i (fun _ => (considerPid (opened c) w i).1) k)
    unfold updPid
    split
    · rename_i hk
      rw [hk]
      exact repaced_chain.trans (h.table i) hrepaced
    · exact h.table k
  have hready : (election c).ready i = true ↔ Sendable (w.1 i) :=
    decide_eq_true_iff.trans (h.table i).sendable.symm
  have hkept : (considerPid (opened c) w i).2 = w.2 → Follows c (pickStep (opened c) w i) best :=
    fun hsame => by
      have hbest : (pickStep (opened c) w i).2 = w.2 := hsame
      exact ⟨htable, by rw [hbest]; exact h.pid, by rw [hbest]; exact h.calm,
        by rw [hbest]; exact h.fullness, by rw [hbest]; exact h.none⟩
  have hwon : (considerPid (opened c) w i).2 = ⟨some i, relaxedDeadline (opened c),
      (considerPid (opened c) w i).1.continuousFullnessBits, false⟩ →
      Follows c (pickStep (opened c) w i) (some i) := by
    intro hnew
    have hbest : (pickStep (opened c) w i).2 = _ := hnew
    have hfull : (considerPid (opened c) w i).1.continuousFullnessBits =
        (c.pids i).continuousFullnessBits :=
      congrArg Mood.continuousFullnessBits (hrepaced.mood.trans (h.mood i).1)
    refine ⟨htable, by rw [hbest], ?_, ?_, fun hnone => by cases hnone⟩
    · rw [hbest]
      exact ⟨.inl rfl, rfl⟩
    · rintro b ⟨⟩
      rw [hbest]
      exact hfull
  unfold Election.challenge
  by_cases hs : Sendable (w.1 i)
  · rw [if_pos hs, challenge_relaxed (c := opened c) hpsi _ i hq h.calm, h.pid] at hcandidate
    rw [if_pos (hready.mpr hs)]
    cases best with
    | none =>
      have hfirst := fuller_none (opened c) i hq
      rw [← h.none rfl] at hfirst
      rw [if_pos (.inr hfirst)] at hcandidate
      exact hwon hcandidate
    | some b =>
      dsimp only
      by_cases hbeats : (election c).Beats i b
      · rw [if_pos hbeats]
        rw [if_pos ((h.beats hrepaced).mpr hbeats)] at hcandidate
        exact hwon hcandidate
      · rw [if_neg hbeats]
        rw [if_neg (mt (h.beats hrepaced).mp hbeats)] at hcandidate
        exact hkept hcandidate
  · rw [if_neg hs] at hcandidate
    rw [if_neg (mt hready.mp hs)]
    exact hkept hcandidate

/-- **The walk is an election.** -/
theorem esPick_elected (hpsi : 2 ≤ c.psiConsecutiveCount)
    (hrelaxed : ∀ k ∈ programPids c, (c.pids k).mood.Relaxed) :
    esPick c = (election c).elected (programPids c) := by
  have hwalk : ∀ (is : List Nat) (w : (Nat → PidState) × Best) (best : Option Nat),
      (∀ k ∈ is, (c.pids k).mood.Relaxed) → Follows c w best →
      Follows c (is.foldl (pickStep (opened c)) w) (is.foldl (election c).challenge best) := by
    intro is
    induction is with
    | nil => exact fun w best _ h => h
    | cons i is ih =>
      intro w best hall h
      exact ih _ _ (fun k hk => hall k (List.mem_cons_of_mem _ hk))
        (h.visit hpsi (hall i List.mem_cons_self))
  have hstart : Follows c (leakAll c, Best.none) none :=
    ⟨fun _ => repaced_chain.refl _, rfl, ⟨.inr rfl, rfl⟩, (fun _ hb => by cases hb), fun _ => rfl⟩
  exact (hwalk (programPids c) _ _ hrelaxed hstart).pid

/-! ## The slot -/

theorem election_light (hrelaxed : ∀ k ∈ programPids c, (c.pids k).mood.Relaxed) :
    (election c).Light (programPids c) :=
  ⟨fun k hk _ => (hrelaxed k hk).nonneg,
    fun k hk _ hpsi => ((hrelaxed k hk).psi (of_decide_eq_true hpsi)).1⟩

theorem scheduled_type (c : Core μ) (k : Nat) :
    ((scheduled c).1.pids k).type = (c.pids k).type := by
  have hwalk : WalkStable fun p q => q.type = p.type :=
    ⟨⟨fun _ => rfl, fun h h' => h'.trans h⟩, fun _ _ _ => rfl, fun _ _ _ => rfl⟩
  exact scheduled_across hwalk (fun _ _ => rfl) c k

/-- After two PSI packets, a PSI PID has a payload slot exactly if the walk picks it and no PCR is
    due. -/
theorem chooseAction_psi {es : Option Nat} {i : Nat} (hpsi : 2 ≤ c.psiConsecutiveCount)
    (htype : (c.pids i).type = .psi) (hidle : es = some i → (c.pids i).bitrateBps = 0) :
    chooseAction c es = .payload i ↔ duePcr c = none ∧ es = some i := by
  -- a PSI PID has no bit rate, and is never congested
  have hslow : es = some i → congested (c.pids i) = false := by
    intro hes
    simp [congested, hidle hes]
  -- the fallback is for video
  have hvideo : fallbackPid c ≠ some i := by
    intro h
    unfold fallbackPid at h
    have hvideo := List.find?_some h
    cases htype.symm.trans (of_decide_eq_true hvideo).1
  unfold chooseAction
  cases duePcr c <;> cases es <;> grind

/-- A PCR is due on a PSI PID, and does not give way. -/
def PcrOnPsi (c : Core μ) : Prop :=
  ∃ g ∈ duePcr c, (c.pids (c.programs g).pcrPidState).type = .psi ∧ ¬ GivesWay c g
deriving Decidable

theorem sendsPsi_iff (hpsi : 2 ≤ c.psiConsecutiveCount)
    (hrelaxed : ∀ k ∈ programPids c, (c.pids k).mood.Relaxed) :
    (∃ i, SendsFrom c i ∧ (c.pids i).type = .psi) ↔
      PcrOnPsi c ∨ (duePcr c = none ∧
        ∃ i, (election c).elected (programPids c) = some i ∧ (c.pids i).type = .psi) := by
  rw [← esPick_elected hpsi hrelaxed]
  have hpick : ∀ {i}, esPick c = some i → i ∈ programPids c := by
    intro i hi
    rw [esPick_elected hpsi hrelaxed] at hi
    rcases Election.elected_spec (election_light hrelaxed) with ⟨hnone, -⟩ | ⟨b, hb, hbl, -⟩
    · cases hnone.symm.trans hi
    · rw [← Option.some.inj (hb.symm.trans hi)]
      exact hbl
  have hchoose : ∀ {i}, (c.pids i).type = .psi →
      ((scheduled c).2 = .payload i ↔ duePcr c = none ∧ esPick c = some i) := by
    intro i htype
    have htype' := (scheduled_type c i).trans htype
    rw [scheduled_action, ← duePcr_scheduled c]
    refine chooseAction_psi (c := (scheduled c).1) hpsi htype' fun hes => ?_
    exact ((scheduled_staysRelaxed c i (hrelaxed i (hpick hes))).psi htype').2
  constructor
  · rintro ⟨i, hsends, htype⟩
    unfold SendsFrom at hsends
    cases haction : (scheduled c).2 with
    | null =>
      rw [haction] at hsends
      cases hsends
    | pcrOnly g =>
      rw [haction] at hsends
      have hpid : (c.programs g).pcrPidState = i := Option.some.inj hsends
      obtain ⟨hdue, hway⟩ := scheduled_pcrOnly_iff.mp haction
      exact .inl ⟨g, hdue, hpid ▸ htype, hway⟩
    | payload j =>
      rw [haction] at hsends
      obtain rfl : j = i := Option.some.inj hsends
      obtain ⟨hdue, hes⟩ := (hchoose htype).mp haction
      exact .inr ⟨hdue, j, hes, htype⟩
  · rintro (⟨g, hdue, htype, hway⟩ | ⟨hdue, i, hes, htype⟩)
    · refine ⟨(c.programs g).pcrPidState, ?_, htype⟩
      unfold SendsFrom
      rw [scheduled_pcrOnly_iff.mpr ⟨hdue, hway⟩]
      rfl
    · refine ⟨i, ?_, htype⟩
      unfold SendsFrom
      rw [(hchoose htype).mpr ⟨hdue, hes⟩]
      rfl

/-! ## Runs -/

/-- What is claimed of a slot: after two PSI packets it sends a third only if no video or audio PID
    of a program is ready to send. -/
def PsiYields (s : Tsshaper μ) : Event → Prop
  | .slot => Due s.core → 2 ≤ s.core.psiConsecutiveCount →
    ∀ i, SendsFrom s.core i → (s.core.pids i).type = .psi →
      ∀ k ∈ programPids s.core, isAv (s.core.pids k) = true → ¬ Sendable (leakAll s.core k)
  | _ => True

/-- After two PSI packets the slot sends the PCR of a PSI PID, or a PSI PID overtakes in the walk,
    while a video or audio PID is ready. -/
def Starves (s : Tsshaper μ) : Event → Prop
  | .slot => Due s.core ∧ 2 ≤ s.core.psiConsecutiveCount ∧
    (∃ k ∈ programPids s.core, isAv (s.core.pids k) = true ∧ Sendable (leakAll s.core k)) ∧
      (PcrOnPsi s.core ∨
        (duePcr s.core = none ∧ (election s.core).Overtakes (programPids s.core)))
  | _ => False

instance (s : Tsshaper μ) : (e : Event) → Decidable (Starves s e)
  | .slot => inferInstanceAs (Decidable (_ ∧ _ ∧ (∃ k ∈ _, _ ∧ _) ∧ (_ ∨ _ ∧ _)))
  | .enqueueDts .. | .enqueueTs .. | .enterDrive | .leaveDrive | .enterDrain | .resetTimeline =>
    isFalse id

theorem elected_psi_iff (hrelaxed : ∀ k ∈ programPids c, (c.pids k).mood.Relaxed) {k : Nat}
    (hk : k ∈ programPids c) (hav : isAv (c.pids k) = true) (hready : Sendable (leakAll c k)) :
    (∃ i, (election c).elected (programPids c) = some i ∧ (c.pids i).type = .psi) ↔
      (election c).Overtakes (programPids c) := by
  have hlight := election_light hrelaxed
  have hreadyk : (election c).ready k = true := decide_eq_true hready
  have hother : ¬ ∀ a ∈ programPids c,
      (election c).ready a = true → (election c).yields a = true := by
    intro hall
    have hpsi : (c.pids k).type = .psi := of_decide_eq_true (hall k hk hreadyk)
    rcases of_decide_eq_true hav with hvideo | haudio
    · cases hpsi.symm.trans hvideo
    · cases hpsi.symm.trans haudio
  rw [← (Election.elected_yielding_iff hlight).trans (or_iff_right hother)]
  rcases Election.elected_spec hlight with ⟨-, hnone⟩ | ⟨b, hb, -⟩
  · cases (hnone k hk).symm.trans hreadyk
  · constructor
    · rintro ⟨i, hi, hpsi⟩ x hx
      rw [← Option.some.inj (hi.symm.trans hx)]
      exact decide_eq_true hpsi
    · exact fun h => ⟨b, hb, of_decide_eq_true (h b hb)⟩

/-- **One slot.** -/
theorem psiYields_iff {s : Tsshaper μ}
    (hrelaxed : ∀ k ∈ programPids s.core, (s.core.pids k).mood.Relaxed) (e : Event) :
    PsiYields s e ↔ ¬ Starves s e := by
  cases e with
  | slot =>
    constructor
    · rintro hyields ⟨hdue, hpsi, ⟨k, hk, hav, hready⟩, hcause⟩
      rw [← elected_psi_iff hrelaxed hk hav hready, ← sendsPsi_iff hpsi hrelaxed] at hcause
      obtain ⟨i, hsends, htype⟩ := hcause
      exact hyields hdue hpsi i hsends htype k hk hav hready
    · intro hnot hdue hpsi i hsends htype k hk hav hready
      refine hnot ⟨hdue, hpsi, ⟨k, hk, hav, hready⟩, ?_⟩
      rw [← elected_psi_iff hrelaxed hk hav hready, ← sendsPsi_iff hpsi hrelaxed]
      exact ⟨i, hsends, htype⟩
  | _ => exact iff_of_true trivial id

/-! ### The program tables stay -/

def SameTables (c d : Core μ) : Prop := ∀ g, (d.programs g).pids = (c.programs g).pids

theorem SameTables.programPids {d : Core μ} (h : SameTables c d) (hset : SameSetUp c d) :
    programPids d = programPids c := by
  unfold Shaper.programPids
  rw [hset.layout]
  exact List.flatMap_congr fun g _ => h g

theorem emit_sameTables (c : Core μ) (a : Action) : SameTables c (emit c a) := by
  cases a with
  | null =>
    intro g
    show ((emitNull c).programs g).pids = _
    unfold emitNull
    split <;> rfl
  | payload i => exact fun g => rfl
  | pcrOnly g =>
    intro k
    have hwindow : (pcrWindow c g (pcrOf c g)).2.1.pids = (c.programs g).pids := by
      unfold pcrWindow
      dsimp only
      split <;> rfl
    show (if k = g then ({ (pcrWindow c g (pcrOf c g)).2.1 with
      lastPcrVal := pcrOf c g
      nextPcrPacket := (pcrWindow c g (pcrOf c g)).2.1.nextPcrPacket +
        (pcrWindow c g (pcrOf c g)).2.1.pcrPacketPeriod } : Program) else c.programs k).pids = _
    split
    · rename_i hk
      rw [hk]
      exact hwindow
    · rfl

theorem eventStep_sameTables (si : SiCallback μ) (s : Tsshaper μ) (e : Event) :
    SameTables s.core (eventStep si s e).core := by
  intro g
  by_cases hslot : e = .slot → ¬ Due s.core
  · rw [(eventStep_sameOutput si s hslot).programs]
  · obtain ⟨rfl, hdue⟩ := Classical.not_imp.mp hslot
    show ((tssStepInternal si s.core).programs g).pids = _
    rw [(slot_output si (not_not.mp hdue)).2.1]
    exact emit_sameTables (scheduled s.core).1 (scheduled s.core).2 g

/-- **Bounded PSI priority**, in every run of a shaper that was set up with programs of its PIDs:
    after two PSI packets a slot yields to every video and audio PID that is ready, exactly in the
    runs in which no slot then sends a PCR on a PSI PID and no PSI PID overtakes in the walk. -/
theorem psi_bounded_iff (si : SiCallback μ) (s : Tsshaper μ) (hs : SetUp s)
    (hprograms : ∀ k ∈ programPids s.core, k < s.core.layout.nbAllPids) (events : List Event) :
    Along PsiYields (eventStep si) s events ↔
      Along (fun s e => ¬ Starves s e) (eventStep si) s events := by
  refine along_iff (I := fun s => ∀ k ∈ programPids s.core, (s.core.pids k).mood.Relaxed)
    (fun t e ht k hk => ?_) (fun t e ht => psiYields_iff ht e) events s fun k hk => ?_
  · rw [(eventStep_sameTables si t e).programPids (eventStep_sameSetUp si t e)] at hk
    exact eventStep_staysRelaxed si t e k (ht k hk)
  · obtain ⟨pidNum, type, br, hnew⟩ := hs.pids k (hprograms k hk)
    rw [hnew]
    exact newPid_relaxed ..

/-! ### One audio and one PSI PID -/

/-- An audio PID 0x101, which carries the PCR, and a PSI PID 0x20; the program lists them in this
    order. -/
def audioAndPsi (order : List Nat) : Core Unit :=
  let c := oneStream ⟨10000000, 35, 0, 0, 1⟩ 100
  { c with
    layout :=
      { c.layout with
        nbAllPids := 2
        pidMap := fun n => if n = 0x101 then some 0 else if n = 0x20 then some 1 else none
        streamIndexToPid_lt := fun n i h =>
          Nat.lt_succ_of_lt (c.layout.streamIndexToPid_lt n i h) }
    programs := fun g => { c.programs g with pids := order, pcrPid := 0x101 }
    pids := fun i => if i = 0 then newPid c.cfg 0x101 .audio 128000 else newPid c.cfg 0x20 .psi 0 }

theorem audioAndPsi_setUp (order : List Nat) :
    SetUp (⟨Timeline.init, audioAndPsi order⟩ : Tsshaper Unit) := by
  refine ⟨rfl, rfl, rfl, rfl, rfl, fun i _ => ?_⟩
  show ∃ pidNum type br, (if i = 0 then _ else _) = _
  split
  · exact ⟨_, _, _, rfl⟩
  · exact ⟨_, _, _, rfl⟩

/-- Three PSI packets and an audio packet wait; the PCR and two PSI packets are sent. -/
def psiRun : List Event :=
  [.enqueueDts 0 0 true, .enqueueTs 0x20 (fun _ => 0x47), .enqueueTs 0x20 (fun _ => 0x47),
    .enqueueTs 0x20 (fun _ => 0x47), .enqueueTs 0x101 (fun _ => 0x47), .enterDrive, .slot, .slot,
    .slot]

def afterPsiRun (order : List Nat) : Tsshaper Unit :=
  psiRun.foldl (eventStep noTables) ⟨Timeline.init, audioAndPsi order⟩

/-- With the PSI PID listed first, the next slot sends the audio packet. -/
theorem psiFirst_yields :
    (afterPsiRun [1, 0]).core.psiConsecutiveCount = 2 ∧ SendsFrom (afterPsiRun [1, 0]).core 0 ∧
      Along PsiYields (eventStep noTables) ⟨Timeline.init, audioAndPsi [1, 0]⟩
        (psiRun ++ [.slot]) :=
  ⟨by decide +kernel, by decide +kernel,
    (psi_bounded_iff noTables _ (audioAndPsi_setUp _) (by decide +kernel) _).mpr
      (by decide +kernel)⟩

/-- **With the PSI PID listed last** the next slot sends a third PSI packet, although the audio PID
    is ready. -/
theorem psiLast_starves :
    let c := (afterPsiRun [0, 1]).core
    Due c ∧ c.psiConsecutiveCount = 2 ∧ SendsFrom c 1 ∧ (c.pids 1).type = .psi ∧
      0 ∈ programPids c ∧ (c.pids 0).type = .audio ∧ Sendable (leakAll c 0) := by
  decide +kernel

end TsAnalyzer.Shaper
