/-
  Is the timeline anchored once per epoch?

  An epoch ends when `dts_epoch_invalid` is set: by the end of a `WAIT_IDR`, a watchdog or a reset.
  The next key frame anchors the timeline.  There are two anchors, and only the one on RUNNING
  clocks clears the flag: behind a reset it stays set, the next frames are ignored, and the next key
  frame anchors once more and flushes what was queued in between.
-/
import TsAnalyzer.Shaper.Isolation

namespace TsAnalyzer.Shaper

open Lib

variable {μ : Type}

/-! ## Specification -/

def Anchors (s : Tsshaper μ) : Event → Prop
  | .enqueueDts pidNum dts isKey => ∃ i, AnchorsAt s pidNum dts isKey i
  | _ => False

/-- A DTS arrives and is ignored, because the epoch is invalid. -/
def Ignores (s : Tsshaper μ) : Event → Prop
  | .enqueueDts pidNum dts isKey => ∃ i, Arrives s pidNum dts isKey i ∧
    anchors (noteFrame s i isKey).1 isKey = false ∧
      (noteFrame s i isKey).1.core.dtsEpochInvalid = true
  | _ => False

/-- A recovery from shedding, a watchdog or a reset ends the epoch. -/
def EndsEpoch (si : SiCallback μ) (s : Tsshaper μ) (e : Event) : Prop :=
  e = .resetTimeline ∨ invalidators si s e ≠ []

/-- The shaper, and whether its timeline was anchored and its epoch has not ended since. -/
structure Epoch (μ : Type) where
  shaper : Tsshaper μ
  settled : Prop

def epochStep (si : SiCallback μ) (w : Epoch μ) (e : Event) : Epoch μ where
  shaper := eventStep si w.shaper e
  settled := Anchors w.shaper e ∨ (w.settled ∧ ¬ EndsEpoch si w.shaper e)

/-- An anchor leaves a valid epoch, and until that ends nothing is anchored and nothing ignored. -/
def AnchorsOnce (si : SiCallback μ) (w : Epoch μ) (e : Event) : Prop :=
  (Anchors w.shaper e → (eventStep si w.shaper e).core.dtsEpochInvalid = false) ∧
    (w.settled → ¬ EndsEpoch si w.shaper e → ¬ Anchors w.shaper e ∧ ¬ Ignores w.shaper e)

/-- An anchor finds the clocks running, or the epoch valid. -/
def AnchorsFresh (si : SiCallback μ) (w : Epoch μ) (e : Event) : Prop :=
  Anchors w.shaper e → w.shaper.core.clock.vStc ≠ noptsValue ∨
    (w.shaper.core.dtsEpochInvalid = false ∧ invalidators si w.shaper e = [])

/-! ## The flag -/

theorem enqueueTs_flag (c : Core μ) (pidNum : Nat) (pkt : Packet)
    (h : watchdogs c [(pidNum, pkt)] = []) :
    (tsshaperEnqueueTs c pidNum pkt).dtsEpochInvalid = c.dtsEpochInvalid := by
  unfold tsshaperEnqueueTs
  split
  · rfl
  · rename_i i hi
    have hquiet : (tssInternalEnqueuePacket c.clock.vStc (c.pids i) pkt).2 = false := by
      simpa [watchdogs, hi, Option.filter] using h
    simp [hquiet]

theorem enqueueAll_flag (pkts : List (Nat × Packet)) :
    ∀ c : Core μ, watchdogs c pkts = [] →
      (enqueueAll c pkts).dtsEpochInvalid = c.dtsEpochInvalid := by
  induction pkts with
  | nil => exact fun c _ => rfl
  | cons p pkts ih =>
    intro c h
    obtain ⟨hp, hpkts⟩ := List.append_eq_nil_iff.mp h
    have hone : watchdogs c [p] = [] := List.append_eq_nil_iff.mpr ⟨hp, rfl⟩
    exact (ih _ hpkts).trans (enqueueTs_flag c p.1 p.2 hone)

theorem watchdogs_muxer (pkts : List (Nat × Packet)) :
    ∀ (c : Core μ) (m : μ), watchdogs { c with muxer := m } pkts = watchdogs c pkts := by
  induction pkts with
  | nil => exact fun c m => rfl
  | cons p pkts ih =>
    intro c m
    have hstep : tsshaperEnqueueTs { c with muxer := m } p.1 p.2 =
        { tsshaperEnqueueTs c p.1 p.2 with muxer := m } := by
      unfold tsshaperEnqueueTs
      dsimp only
      split <;> rfl
    show _ ++ watchdogs (tsshaperEnqueueTs { c with muxer := m } p.1 p.2) pkts = _
    rw [hstep, ih]
    rfl

theorem retransmit_flag (si : SiCallback μ) (forcePat forceSdt : Bool) (c : Core μ)
    (h : watchdogs c (si c.muxer forcePat forceSdt c.clock.vStc).2 = []) :
    (retransmit si forcePat forceSdt c).dtsEpochInvalid = c.dtsEpochInvalid :=
  enqueueAll_flag _ { c with muxer := _ } ((watchdogs_muxer _ c _).trans h)

theorem metrology_flag (c : Core μ) :
    (tssAccountMetrology c).dtsEpochInvalid = c.dtsEpochInvalid := by
  unfold tssAccountMetrology
  dsimp only
  split_ifs <;> rfl

theorem tablesCore_flag (c : Core μ) : (tablesCore c).dtsEpochInvalid = c.dtsEpochInvalid := by
  have hrefill : ∀ d : Core μ, (tssRefillTokensFlywheel d).dtsEpochInvalid = d.dtsEpochInvalid := by
    intro d
    unfold tssRefillTokensFlywheel
    dsimp only
    split_ifs <;> rfl
  have hemit : ∀ (d : Core μ) (a : Action), (emit d a).dtsEpochInvalid = d.dtsEpochInvalid := by
    intro d a
    cases a with
    | null => show (emitNull d).dtsEpochInvalid = _; unfold emitNull; split <;> rfl
    | pcrOnly | payload => rfl
  exact (hrefill _).trans (hemit _ _)

theorem slot_flag (si : SiCallback μ) (s : Tsshaper μ) (h : invalidators si s .slot = []) :
    (tssStepInternal si s.core).dtsEpochInvalid = s.core.dtsEpochInvalid := by
  by_cases hdue : Due s.core
  · simp only [invalidators, if_pos hdue] at h
    obtain ⟨hpat, hsdt⟩ := List.append_eq_nil_iff.mp h
    have hpats : (retransmitPat si (tablesCore s.core)).dtsEpochInvalid =
        (tablesCore s.core).dtsEpochInvalid := by
      unfold retransmitPat
      split
      · rename_i hdue
        rw [if_pos hdue] at hpat
        exact retransmit_flag si true false _ hpat
      · rfl
    have hsdts : ∀ d : Core μ, (if d.clock.vStc - d.nextSdtTs ≥ d.layout.sdtPeriod then
        watchdogs d (si d.muxer false true d.clock.vStc).2 else []) = [] →
        (retransmitSdt si d).dtsEpochInvalid = d.dtsEpochInvalid := by
      intro d hd
      unfold retransmitSdt
      split
      · rename_i hdue
        rw [if_pos hdue] at hd
        exact retransmit_flag si false true _ hd
      · rfl
    rw [tssStepInternal_due si hdue]
    exact (metrology_flag _).trans ((hsdts _ hsdt).trans (hpats.trans (tablesCore_flag _)))
  · rw [tssStepInternal_notDue si hdue]

theorem acceptDts_flag (s : Tsshaper μ) (i : Nat) (dts : Int) :
    (acceptDts s i dts).core.dtsEpochInvalid = s.core.dtsEpochInvalid ∧
      (acceptDts s i dts).timeline.firstDts = s.timeline.firstDts := by
  have harrive : ∀ t : Tsshaper μ,
      (arrive t i dts).core.dtsEpochInvalid = t.core.dtsEpochInvalid ∧
        (arrive t i dts).timeline.firstDts = t.timeline.firstDts := by
    intro t
    refine ⟨rfl, ?_⟩
    dsimp only [arrive]
    split <;> rfl
  have hvote : (tssVoterProcess s i dts).1.core.dtsEpochInvalid = s.core.dtsEpochInvalid ∧
      (tssVoterProcess s i dts).1.timeline.firstDts = s.timeline.firstDts := by
    unfold tssVoterProcess
    dsimp only
    split <;> exact ⟨rfl, rfl⟩
  unfold acceptDts
  split
  · exact harrive (resync s i dts)
  · dsimp only
    split
    · exact hvote
    · exact ⟨(harrive _).1.trans hvote.1, (harrive _).2.trans hvote.2⟩

section Dts

variable {si : SiCallback μ} {s : Tsshaper μ} {pidNum : Nat} {dts : Int} {isKey : Bool} {i : Nat}

theorem invalidators_dts (h : Arrives s pidNum dts isKey i) :
    invalidators si s (.enqueueDts pidNum dts isKey) = [] ↔ (s.core.pids i).state ≠ .waitIdr := by
  simp [invalidators, h.1, h.2.1, h.2.2]

theorem dts_kept (hanchors : ¬ Anchors s (.enqueueDts pidNum dts isKey))
    (hquiet : invalidators si s (.enqueueDts pidNum dts isKey) = []) :
    (tsshaperEnqueueDts s pidNum dts isKey).core.dtsEpochInvalid = s.core.dtsEpochInvalid ∧
      (tsshaperEnqueueDts s pidNum dts isKey).timeline.firstDts = s.timeline.firstDts := by
  unfold tsshaperEnqueueDts
  split
  · exact ⟨rfl, rfl⟩
  · rename_i i hi
    split
    · exact ⟨rfl, rfl⟩
    · rename_i hdts
      have hwait : (noteFrame s i isKey).2 = true → (s.core.pids i).state ≠ .waitIdr :=
        fun hgo => (invalidators_dts ⟨hi, hdts, hgo⟩).mp hquiet
      have hnoted : (noteFrame s i isKey).1.core.dtsEpochInvalid = s.core.dtsEpochInvalid := by
        have hiff := noteFrame_valid_iff s i isKey
        rw [and_iff_left hwait] at hiff
        exact Bool.eq_iff_iff.mpr (by simpa using not_congr hiff)
      have hfirst := congrArg Timeline.firstDts (noteFrame_timeline s i isKey)
      dsimp only
      split
      · rename_i hgo
        unfold placeDts
        rw [if_neg fun h => hanchors ⟨i, ⟨hi, hdts, hgo⟩, h⟩]
        split
        · exact ⟨hnoted, hfirst⟩
        · have hkept := acceptDts_flag (noteFrame s i isKey).1 i dts
          exact ⟨hkept.1.trans hnoted, hkept.2.trans hfirst⟩
      · exact ⟨hnoted, hfirst⟩

theorem anchored_valid_iff (h : AnchorsAt s pidNum dts isKey i) :
    (tsshaperEnqueueDts s pidNum dts isKey).core.dtsEpochInvalid = false ↔
      s.core.clock.vStc ≠ noptsValue ∨ (s.core.dtsEpochInvalid = false ∧
        invalidators si s (.enqueueDts pidNum dts isKey) = []) := by
  have hflag : (tsshaperEnqueueDts s pidNum dts isKey).core.dtsEpochInvalid =
      (if (noteFrame s i isKey).1.core.clock.vStc = noptsValue
        then anchorClock (noteFrame s i isKey).1.core
        else reanchorCore (noteFrame s i isKey).1.core).dtsEpochInvalid := by
    rw [enqueueDts_anchored h]
    rfl
  rw [hflag, noteFrame_clock]
  by_cases hhalted : s.core.clock.vStc = noptsValue
  · rw [if_pos hhalted, or_iff_right (not_not.mpr hhalted), invalidators_dts h.1]
    refine (noteFrame_valid_iff s i isKey).trans (and_congr_right' ?_)
    exact ⟨fun hwait => hwait h.1.2.2, fun hwait _ => hwait⟩
  · rw [if_neg hhalted]
    exact iff_of_true rfl (.inl hhalted)

theorem anchored_firstDts (h : AnchorsAt s pidNum dts isKey i) :
    (tsshaperEnqueueDts s pidNum dts isKey).timeline.firstDts = dts := by
  rw [enqueueDts_anchored h]
  dsimp only [arrive]
  split <;> rfl

end Dts

/-- **An event that neither anchors nor ends the epoch** leaves the flag and `first_dts` alone. -/
theorem event_kept (si : SiCallback μ) (s : Tsshaper μ) {e : Event} (hanchors : ¬ Anchors s e)
    (hquiet : ¬ EndsEpoch si s e) :
    (eventStep si s e).core.dtsEpochInvalid = s.core.dtsEpochInvalid ∧
      (eventStep si s e).timeline.firstDts = s.timeline.firstDts := by
  have hnone : invalidators si s e = [] := not_not.mp fun h => hquiet (.inr h)
  cases e with
  | enqueueDts pidNum dts isKey => exact dts_kept hanchors hnone
  | enqueueTs pidNum pkt => exact ⟨enqueueTs_flag s.core pidNum pkt hnone, rfl⟩
  | enterDrive =>
    refine ⟨?_, rfl⟩
    show (driveFuse _).dtsEpochInvalid = _
    unfold driveFuse
    dsimp only
    split <;> rfl
  | slot => exact ⟨slot_flag si s hnone, rfl⟩
  | leaveDrive | enterDrain => exact ⟨rfl, rfl⟩
  | resetTimeline => exact absurd (.inl rfl) hquiet

/-! ## Runs -/

/-- In a settled epoch the flag is clear and there is an anchor. -/
def Epoch.Sound (w : Epoch μ) : Prop := w.settled →
  w.shaper.core.dtsEpochInvalid = false ∧ w.shaper.timeline.firstDts ≠ noptsValue

theorem Epoch.Sound.step {si : SiCallback μ} {w : Epoch μ} {e : Event} (hw : w.Sound)
    (h : AnchorsOnce si w e) : (epochStep si w e).Sound := by
  intro hsettled
  by_cases hanchors : Anchors w.shaper e
  · refine ⟨h.1 hanchors, ?_⟩
    cases e with
    | enqueueDts pidNum dts isKey =>
      obtain ⟨i, hi⟩ := hanchors
      show (tsshaperEnqueueDts w.shaper pidNum dts isKey).timeline.firstDts ≠ _
      rw [anchored_firstDts hi]
      exact hi.1.2.1
    | _ => exact absurd hanchors id
  · obtain ⟨hsettled, hquiet⟩ := hsettled.resolve_left hanchors
    obtain ⟨hflag, hfirst⟩ := event_kept si w.shaper hanchors hquiet
    exact ⟨hflag.trans (hw hsettled).1, fun h => (hw hsettled).2 (hfirst.symm.trans h)⟩

theorem anchorsOnce_iff {si : SiCallback μ} {w : Epoch μ} (hw : w.Sound) (e : Event) :
    AnchorsOnce si w e ↔ AnchorsFresh si w e := by
  have hsettled : w.settled → ¬ EndsEpoch si w.shaper e →
      ¬ Anchors w.shaper e ∧ ¬ Ignores w.shaper e := by
    intro hs hquiet
    obtain ⟨hvalid, hfirst⟩ := hw hs
    have hnone : invalidators si w.shaper e = [] := not_not.mp fun h => hquiet (.inr h)
    cases e with
    | enqueueDts pidNum dts isKey =>
      have hflag : ∀ i, Arrives w.shaper pidNum dts isKey i →
          (noteFrame w.shaper i isKey).1.core.dtsEpochInvalid = false := fun i hi =>
        (noteFrame_valid_iff w.shaper i isKey).mpr ⟨hvalid, fun _ => (invalidators_dts hi).mp hnone⟩
      refine ⟨?_, ?_⟩
      · rintro ⟨i, hi, hanchors⟩
        rw [anchors, hflag i hi, noteFrame_timeline] at hanchors
        simp [hfirst] at hanchors
      · rintro ⟨i, hi, -, hinvalid⟩
        cases hinvalid.symm.trans (hflag i hi)
    | _ => exact ⟨id, id⟩
  refine (and_iff_left hsettled).trans ?_
  cases e with
  | enqueueDts pidNum dts isKey =>
    refine forall_congr' fun hanchors => ?_
    obtain ⟨i, hi⟩ := hanchors
    exact anchored_valid_iff hi
  | _ => exact ⟨fun _ h => absurd h id, fun _ h => absurd h id⟩

/-- **The timeline is anchored once per epoch exactly in the runs** in which every anchor finds the
    clocks running or the epoch valid. -/
theorem anchored_once_iff (si : SiCallback μ) (s : Tsshaper μ) (events : List Event) :
    Along (AnchorsOnce si) (epochStep si) ⟨s, False⟩ events ↔
      Along (AnchorsFresh si) (epochStep si) ⟨s, False⟩ events :=
  along_iff_while_of_along (I := Epoch.Sound) (R := fun _ _ => True)
    (fun _ _ hw _ h => hw.step h) (fun _ e hw _ => anchorsOnce_iff hw e) events ⟨s, False⟩
    (fun h => absurd h id) (along_true _ _ _)

/-- **After a reset the first anchor leaves the flag set**: a packet queued behind it is flushed by
    the next key frame, and a frame that is no key frame would be ignored. -/
theorem reset_anchors_twice :
    let s : Tsshaper Unit := [Event.enqueueDts 0 0 true, .resetTimeline].foldl
      (eventStep noTables) ⟨Timeline.init, oneStream ⟨10000000, 35, 0, 0, 1⟩ 100⟩
    let t := [Event.enqueueDts 0 0 true, .enqueueTs 0x100 (mediaPacket 0)].foldl
      (eventStep noTables) s
    AnchorsAt s 0 0 true 0 ∧ t.core.dtsEpochInvalid = true ∧ (t.core.pids 0).tsFifo.size = 188 ∧
      AnchorsAt t 0 1 true 0 ∧ ¬ AnchorsAt t 0 1 false 0 ∧ ¬ AcceptsAt t 0 1 false 0 ∧
      ((eventStep noTables t (.enqueueDts 0 1 true)).core.pids 0).tsFifo.size = 0 := by
  decide +kernel

end TsAnalyzer.Shaper
