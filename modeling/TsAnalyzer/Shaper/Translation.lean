/-
  A confirmed jump, seen from both sides of the translation.

  How far the shaper is behind its input is told by the drive budget and the slack of a sample.  A
  jump by `J` is seamless if both are, after the translation, what they were before the jump.  The
  translation adds `J` to `dts_offset`, which is right, but to `v_stc` as well, and not to
  `max_dts_seen`.  Hence both change by `-J`, the slack also by what the clock has run since, the
  budget by what `max_dts_seen` has gained on it (`seamless_iff`).
-/
import TsAnalyzer.Shaper.Voter

namespace TsAnalyzer.Shaper

open Lib

variable {μ : Type}

/-! ## Budget and slack -/

/-- The budget of `tsshaper_drive`: `max_dts_seen - mux_delay_27m - v_stc`. -/
def budget (c : Core μ) : Int := driveTarget c - c.clock.vStc

/-- `rel_dts - v_stc` of a sample. -/
def slack (s : Tsshaper μ) (dts : Int) : Int := dts - s.timeline.dtsOffset - s.core.clock.vStc

/-- From `s` to `t` the budget, and the slack of a sample that comes `jump` later, are the same up
    to 500 ms. -/
def Seamless (s t : Tsshaper μ) (jump : Int) : Prop :=
  ffabs (budget t.core - budget s.core) ≤ 500 * 27000 ∧
    ∀ dts, ffabs (slack t (dts + jump) - slack s dts) ≤ 500 * 27000

/-! ## The translation -/

theorem voterPid_translate {physicalStc : Int} {master : Bool} {p q : PidState} {delta jump : Int}
    (h : voterPid physicalStc master p delta = (q, .translate jump)) :
    p.state = .confirming ∧ jump = p.candidateJump := by
  have heff := voterPid_effect physicalStc master p delta
  rw [h] at heff
  dsimp only at heff
  generalize q.ballot = b at heff
  cases heff with
  | confirmed hconf _ _ _ => exact ⟨hconf, rfl⟩

/-- **The translation**: offset and clock move by the candidate, `max_dts_seen` does not. -/
theorem translated_clock {s : Tsshaper μ} {pidNum : Nat} {dts : Int} {isKey : Bool} {i : Nat}
    (h : TranslatesAt s pidNum dts isKey i) :
    (s.core.pids i).state = .confirming ∧
      (tsshaperEnqueueDts s pidNum dts isKey).timeline.dtsOffset =
        s.timeline.dtsOffset + (s.core.pids i).candidateJump ∧
      (tsshaperEnqueueDts s pidNum dts isKey).core.clock.vStc =
        s.core.clock.stcBase + (s.core.pids i).candidateJump ∧
      (tsshaperEnqueueDts s pidNum dts isKey).core.clock.maxDtsSeen = s.core.clock.maxDtsSeen ∧
      (tsshaperEnqueueDts s pidNum dts isKey).core.cfg = s.core.cfg := by
  have hclock := noteFrame_clock s i isKey
  have hcfg := (noteFrame_sameSetUp s i isKey).cfg
  have hballot := noteFrame_across ballotKept_stable.chain ballotKept_entry s i isKey i
  obtain ⟨p, jump, hv, heq⟩ := tssVoterProcess_translated h.2
  obtain ⟨hconf, hjump⟩ := voterPid_translate hv
  have hsame := hballot hconf
  have hcandidate : jump = (s.core.pids i).candidateJump :=
    hjump.trans (congrArg Ballot.candidate hsame)
  rw [enqueueDts_translated h, heq, hcandidate]
  refine ⟨(congrArg Ballot.state hsame).symm.trans hconf, ?_, ?_, ?_, hcfg⟩
  · show (noteFrame s i isKey).1.timeline.dtsOffset + _ = _
    rw [noteFrame_timeline]
  · show (noteFrame s i isKey).1.core.clock.stcBase + _ = _
    rw [hclock]
  · show (noteFrame s i isKey).1.core.clock.maxDtsSeen = _
    rw [hclock]

/-! ## Between the jump and the translation -/

theorem eventStep_offset (si : SiCallback μ) {s : Tsshaper μ} {e : Event} (h : ¬ Jumps s e) :
    (eventStep si s e).timeline.dtsOffset = s.timeline.dtsOffset := by
  cases e with
  | enqueueDts pidNum dts isKey => exact (enqueueDts_still h).offset
  | _ => rfl

theorem run_offset (si : SiCallback μ) (s : Tsshaper μ) (events : List Event)
    (hcalm : Along (fun s e => ¬ Jumps s e) (eventStep si) s events) :
    (events.foldl (eventStep si) s).timeline.dtsOffset = s.timeline.dtsOffset ∧
      (events.foldl (eventStep si) s).core.cfg = s.core.cfg :=
  along_inv (I := fun t => t.timeline.dtsOffset = s.timeline.dtsOffset ∧ t.core.cfg = s.core.cfg)
    (fun t e ht hcalm => ⟨(eventStep_offset si hcalm).trans ht.1,
      (eventStep_sameSetUp si t e).cfg.trans ht.2⟩)
    events s ⟨rfl, rfl⟩ hcalm events (List.prefix_refl _)

section Sides

variable {s u : Tsshaper μ} {pidNum : Nat} {dts : Int} {isKey : Bool} {i : Nat}
  (h : TranslatesAt u pidNum dts isKey i)
include h

theorem budget_translated (hcfg : u.core.cfg = s.core.cfg) :
    budget (tsshaperEnqueueDts u pidNum dts isKey).core - budget s.core =
      u.core.clock.maxDtsSeen - s.core.clock.maxDtsSeen -
        (u.core.clock.stcBase - s.core.clock.vStc) - (u.core.pids i).candidateJump := by
  obtain ⟨-, -, hstc, hmax, hcfg'⟩ := translated_clock h
  unfold budget driveTarget
  rw [hmax, hcfg', hcfg, hstc]
  omega

theorem slack_translated (hoffset : u.timeline.dtsOffset = s.timeline.dtsOffset) (x : Int) :
    slack (tsshaperEnqueueDts u pidNum dts isKey) (x + (u.core.pids i).candidateJump) - slack s x =
      -(u.core.clock.stcBase - s.core.clock.vStc + (u.core.pids i).candidateJump) := by
  obtain ⟨-, hoffset', hstc, -⟩ := translated_clock h
  unfold slack
  rw [hoffset', hoffset, hstc]
  omega

end Sides

theorem ffabs_neg (a : Int) : ffabs (-a) = ffabs a := by
  unfold ffabs
  split <;> split <;> omega

/-- **A jump is seamless, exactly when.**  Let no anchor and no translation lie between `s`, just
    before the jump, and `u`, where the jump is confirmed.  Between `s` and the state after the
    translation, budget and slack agree up to 500 ms if and only if the clock's run since the jump
    makes up for the jump, and `max_dts_seen` has gained on the clock by the jump, each up to
    500 ms. -/
theorem seamless_iff (si : SiCallback μ) (s : Tsshaper μ) (events : List Event)
    (hcalm : Along (fun s e => ¬ Jumps s e) (eventStep si) s events) (pidNum : Nat) (dts : Int)
    (isKey : Bool) (i : Nat) (h : TranslatesAt (events.foldl (eventStep si) s) pidNum dts isKey i) :
    let u := events.foldl (eventStep si) s
    let jump := (u.core.pids i).candidateJump
    let advance := u.core.clock.stcBase - s.core.clock.vStc
    let gain := u.core.clock.maxDtsSeen - s.core.clock.maxDtsSeen
    Seamless s (tsshaperEnqueueDts u pidNum dts isKey) jump ↔
      ffabs (gain - advance - jump) ≤ 500 * 27000 ∧ ffabs (advance + jump) ≤ 500 * 27000 := by
  intro u jump advance gain
  obtain ⟨hoffset, hcfg⟩ := run_offset si s events hcalm
  have hslack := slack_translated h hoffset
  unfold Seamless
  rw [budget_translated h hcfg]
  constructor
  · rintro ⟨hb, hs⟩
    have hzero := hs 0
    rw [hslack, ffabs_neg] at hzero
    exact ⟨hb, hzero⟩
  · rintro ⟨hb, hs⟩
    refine ⟨hb, fun x => ?_⟩
    rw [hslack, ffabs_neg]
    exact hs

/-- A backward jump of 500 ms, confirmed at once: seamless, to the last tick. -/
theorem backwardJump_seamless :
    let s : Tsshaper Unit := eventStep noTables
      ⟨Timeline.init, oneStream ⟨10000000, 35, 0, 0, 1⟩ 1⟩ (.enqueueDts 0 (1000 * 27000) true)
    let u := [Event.enqueueDts 0 (500 * 27000) false, .enqueueDts 0 (540 * 27000) false].foldl
      (eventStep noTables) s
    (u.core.pids 0).candidateJump = -(500 * 27000) ∧
      Seamless s (tsshaperEnqueueDts u 0 (580 * 27000) false) (u.core.pids 0).candidateJump :=
  ⟨by decide +kernel, (seamless_iff noTables _ _ (by decide +kernel) 0 (580 * 27000) false 0
    (by decide +kernel)).mpr (by decide +kernel)⟩

/-- **A forward jump of two seconds is lost.**  The regular frame after the anchor would have come
    with a slack of 440 ms; after the translation, with no slot between, the same frame on the new
    timeline is 1600 ms late. -/
theorem forwardJump_late :
    let s : Tsshaper Unit := eventStep noTables
      ⟨Timeline.init, oneStream ⟨10000000, 35, 0, 0, 1⟩ 1⟩ (.enqueueDts 0 0 true)
    let u := [Event.enqueueDts 0 (2040 * 27000) false, .enqueueDts 0 (2080 * 27000) false].foldl
      (eventStep noTables) s
    let t := tsshaperEnqueueDts u 0 (2120 * 27000) false
    let jump := (u.core.pids 0).candidateJump
    TranslatesAt u 0 (2120 * 27000) false 0 ∧ jump = 2040 * 27000 ∧
      slack s (40 * 27000) = 440 * 27000 ∧ slack t (40 * 27000 + jump) = -(1600 * 27000) ∧
      ¬ Seamless s t jump := by
  intro s u t jump
  have hfacts : TranslatesAt u 0 (2120 * 27000) false 0 ∧ jump = 2040 * 27000 ∧
      slack s (40 * 27000) = 440 * 27000 ∧ slack t (40 * 27000 + jump) = -(1600 * 27000) := by
    decide +kernel
  obtain ⟨htrans, hjump, hbefore, hafter⟩ := hfacts
  refine ⟨htrans, hjump, hbefore, hafter, ?_⟩
  rintro ⟨-, hslack⟩
  have hframe := hslack (40 * 27000)
  rw [hafter, hbefore] at hframe
  exact absurd hframe (by decide)

end TsAnalyzer.Shaper
