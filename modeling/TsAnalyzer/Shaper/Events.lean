/-
  Runs of the shaper.

  A stretch of a run may begin and end in the middle of a drive, so a run is a list of EVENTS, the
  pieces that calls are made of (`callStep_events`).
-/
import TsAnalyzer.Lib.Run
import TsAnalyzer.Shaper.Slot

namespace TsAnalyzer.Shaper

open Lib

variable {μ : Type}

/-! ## Events -/

/-- The pieces of a call. -/
inductive Event where
  | enqueueDts (pidNum : Nat) (dts27m : Int) (isKey : Bool)
  | enqueueTs (pidNum : Nat) (pkt : Packet)
  /-- `tsshaper_drive` up to its loop, with the fuse. -/
  | enterDrive
  /-- One `tss_step_internal`, of a drive or of a drain. -/
  | slot
  | leaveDrive
  | enterDrain
  | resetTimeline

instance : (e : Event) → Decidable (e = .slot)
  | .slot => isTrue rfl
  | .enqueueDts .. | .enqueueTs .. | .enterDrive | .leaveDrive | .enterDrain | .resetTimeline =>
    isFalse Event.noConfusion

def eventStep (si : SiCallback μ) (s : Tsshaper μ) : Event → Tsshaper μ
  | .enqueueDts pidNum dts isKey => tsshaperEnqueueDts s pidNum dts isKey
  | .enqueueTs pidNum pkt => { s with core := tsshaperEnqueueTs s.core pidNum pkt }
  | .enterDrive => { s with core := driveFuse { s.core with inDrive := true } }
  | .slot => { s with core := tssStepInternal si s.core }
  | .leaveDrive => { s with core := { s.core with inDrive := false } }
  | .enterDrain => { s with core := { s.core with inDrain := true } }
  | .resetTimeline => tsshaperResetTimeline s

theorem slots_events (si : SiCallback μ) (t : Timeline) (n : Nat) :
    ∀ c : Core μ, (List.replicate n Event.slot).foldl (eventStep si) ⟨t, c⟩ =
      ⟨t, (tssStepInternal si)^[n] c⟩ := by
  induction n with
  | zero => exact fun c => rfl
  | succ n ih => exact fun c => ih (tssStepInternal si c)

/-- **Every call is a run of events.** -/
theorem callStep_events (si : SiCallback μ) (s : Tsshaper μ) (call : Call) :
    ∃ events : List Event, callStep si s call = events.foldl (eventStep si) s := by
  cases call with
  | enqueueDts pidNum dts isKey => exact ⟨[.enqueueDts pidNum dts isKey], rfl⟩
  | enqueueTs pidNum pkt => exact ⟨[.enqueueTs pidNum pkt], rfl⟩
  | drive =>
    show ∃ events : List Event, ({ s with core := tsshaperDrive si s.core } : Tsshaper μ) = _
    unfold tsshaperDrive
    split
    · exact ⟨[], rfl⟩
    · obtain ⟨n, hn⟩ := driveLoop_slots si (driveTarget s.core) maxDriveSteps
        (driveFuse { s.core with inDrive := true })
      refine ⟨.enterDrive :: (List.replicate n Event.slot ++ [.leaveDrive]), ?_⟩
      rw [List.foldl_cons, List.foldl_append, hn]
      exact congrArg (eventStep si · .leaveDrive) (slots_events si s.timeline n _).symm
  | drain fuel =>
    show ∃ events : List Event, ({ s with core := tsshaperDrain si fuel s.core } : Tsshaper μ) = _
    unfold tsshaperDrain
    split
    · exact ⟨[], rfl⟩
    · obtain ⟨n, hn⟩ := drainLoop_slots si s.core.clock.vStc fuel { s.core with inDrain := true }
      refine ⟨.enterDrain :: List.replicate n Event.slot, ?_⟩
      rw [hn]
      exact (slots_events si s.timeline n { s.core with inDrain := true }).symm
  | resetTimeline => exact ⟨[.resetTimeline], rfl⟩

/-! ## What a DTS can do -/

/-- The voter is not asked: the PID has no last DTS, or must not use it. -/
def Resyncs (s : Tsshaper μ) (i : Nat) : Prop :=
  s.timeline.lastDtsRaw i = noptsValue ∨ (s.core.pids i).needResync = true
deriving Decidable

/-- The voter is asked about this DTS and translates the timeline. -/
def Translates (s : Tsshaper μ) (i : Nat) (dts : Int) : Prop :=
  ¬ (s.timeline.lastDtsRaw i = noptsValue ∨ (s.core.pids i).needResync = true) ∧
    (tssVoterProcess s i dts).2 = true
deriving Decidable

/-- The call gets past its head: the stream has a PID, there is a DTS, and the frame is not one that
    `WAIT_IDR` lets go by. -/
def Arrives (s : Tsshaper μ) (pidNum : Nat) (dts : Int) (isKey : Bool) (i : Nat) : Prop :=
  tssGetState s.core pidNum = some i ∧ dts ≠ noptsValue ∧ (noteFrame s i isKey).2 = true
deriving Decidable

/-- The call anchors the timeline at its DTS. -/
def AnchorsAt (s : Tsshaper μ) (pidNum : Nat) (dts : Int) (isKey : Bool) (i : Nat) : Prop :=
  Arrives s pidNum dts isKey i ∧ anchors (noteFrame s i isKey).1 isKey = true
deriving Decidable

/-- The call asks the voter about its DTS. -/
def Asked (s : Tsshaper μ) (pidNum : Nat) (dts : Int) (isKey : Bool) (i : Nat) : Prop :=
  Arrives s pidNum dts isKey i ∧ anchors (noteFrame s i isKey).1 isKey = false ∧
    (noteFrame s i isKey).1.core.dtsEpochInvalid = false ∧ ¬ Resyncs (noteFrame s i isKey).1 i
deriving Decidable

/-- The call completes a vote that translates the timeline. -/
def TranslatesAt (s : Tsshaper μ) (pidNum : Nat) (dts : Int) (isKey : Bool) (i : Nat) : Prop :=
  Asked s pidNum dts isKey i ∧ (tssVoterProcess (noteFrame s i isKey).1 i dts).2 = true
deriving Decidable

/-- The event anchors the timeline anew or translates it. -/
def Jumps (s : Tsshaper μ) : Event → Prop
  | .enqueueDts pidNum dts isKey =>
    ∃ i, AnchorsAt s pidNum dts isKey i ∨ TranslatesAt s pidNum dts isKey i
  | _ => False

variable {pidNum : Nat} {dts : Int} (s : Tsshaper μ) (i : Nat) (isKey : Bool)

theorem Arrives.unique {s : Tsshaper μ} {isKey : Bool} {i j : Nat}
    (h : Arrives s pidNum dts isKey i) (h' : Arrives s pidNum dts isKey j) : j = i :=
  Option.some.inj (h'.1.symm.trans h.1)

theorem arrives_all_iff (pidNum : Nat) (dts : Int) (isKey : Bool) (P : Nat → Prop) :
    (∀ i ∈ (tssGetState s.core pidNum).toList, Arrives s pidNum dts isKey i → P i) ↔
      ∀ i, Arrives s pidNum dts isKey i → P i :=
  ⟨fun h i hi => h i (Option.mem_toList.mpr hi.1) hi, fun h i _ => h i⟩

theorem arrives_any_iff {s : Tsshaper μ} {isKey : Bool} {P : Nat → Prop}
    (hP : ∀ i, P i → Arrives s pidNum dts isKey i) :
    (∃ i ∈ (tssGetState s.core pidNum).toList, P i) ↔ ∃ i, P i := by
  constructor
  · rintro ⟨i, -, h⟩
    exact ⟨i, h⟩
  · rintro ⟨i, h⟩
    exact ⟨i, Option.mem_toList.mpr (hP i h).1, h⟩

theorem arrives_of_jump {s : Tsshaper μ} {isKey : Bool} {i : Nat}
    (h : AnchorsAt s pidNum dts isKey i ∨ TranslatesAt s pidNum dts isKey i) :
    Arrives s pidNum dts isKey i := by
  rcases h with h | h
  · exact h.1
  · exact h.1.1

instance (s : Tsshaper μ) (e : Event) : Decidable (Jumps s e) := by
  cases e with
  | enqueueDts => exact decidable_of_iff _ (arrives_any_iff fun _ => arrives_of_jump)
  | _ => exact isFalse id

/-- What `tsshaper_enqueue_dts` can do. -/
inductive DtsEffect (s : Tsshaper μ) (pidNum : Nat) (dts : Int) (isKey : Bool) :
    Tsshaper μ → Prop
  /-- No such stream, or no DTS. -/
  | ignored (h : ∀ j, ¬ Arrives s pidNum dts isKey j) : DtsEffect s pidNum dts isKey s
  /-- The frame is noted, but `WAIT_IDR` or an invalid epoch keeps its DTS out. -/
  | noted (i : Nat) (h : ∀ j, ¬ AnchorsAt s pidNum dts isKey j ∧ ¬ Asked s pidNum dts isKey j) :
    DtsEffect s pidNum dts isKey (noteFrame s i isKey).1
  | anchored (i : Nat) (hi : i < s.core.layout.nbAllPids) (h : AnchorsAt s pidNum dts isKey i) :
    DtsEffect s pidNum dts isKey
      (arrive (resync (anchorAt (noteFrame s i isKey).1 dts) i dts) i dts)
  /-- The DTS is taken as it is. -/
  | taken (i : Nat) (h : Arrives s pidNum dts isKey i)
    (hanchors : anchors (noteFrame s i isKey).1 isKey = false)
    (hvalid : (noteFrame s i isKey).1.core.dtsEpochInvalid = false)
    (hr : Resyncs (noteFrame s i isKey).1 i) :
    DtsEffect s pidNum dts isKey (arrive (resync (noteFrame s i isKey).1 i dts) i dts)
  | voted (i : Nat) (h : Asked s pidNum dts isKey i)
    (hkeep : (tssVoterProcess (noteFrame s i isKey).1 i dts).2 = false) :
    DtsEffect s pidNum dts isKey (arrive (tssVoterProcess (noteFrame s i isKey).1 i dts).1 i dts)
  | translated (i : Nat) (h : TranslatesAt s pidNum dts isKey i) :
    DtsEffect s pidNum dts isKey (tssVoterProcess (noteFrame s i isKey).1 i dts).1

theorem noteFrame_beside : Beside s.core (noteFrame s i isKey).1.core := by
  unfold noteFrame
  dsimp only
  split
  · exact ⟨rfl, rfl, rfl, rfl, rfl, rfl⟩
  · unfold resumeFromWaitIdr
    split <;> exact ⟨rfl, rfl, rfl, rfl, rfl, rfl⟩

theorem noteFrame_timeline : (noteFrame s i isKey).1.timeline = s.timeline := by
  unfold noteFrame
  dsimp only
  split <;> rfl

theorem noteFrame_layout :
    (noteFrame s i isKey).1.core.layout = s.core.layout := (noteFrame_beside s i isKey).layout

theorem noteFrame_clock :
    (noteFrame s i isKey).1.core.clock = s.core.clock := (noteFrame_beside s i isKey).clock

theorem anchorAt_resyncs {s : Tsshaper μ} {i : Nat} (hi : i < s.core.layout.nbAllPids) (dts : Int) :
    Resyncs (anchorAt s dts) i := by
  refine .inr ?_
  show (mapPids _ _ _ i).needResync = true
  have hlt : i < (if s.core.clock.vStc = noptsValue then anchorClock s.core
      else reanchorCore s.core).layout.nbAllPids := by
    split <;> exact hi
  unfold mapPids
  rw [if_pos hlt]

theorem acceptDts_resyncs {s : Tsshaper μ} {i : Nat} (h : Resyncs s i) (dts : Int) :
    acceptDts s i dts = arrive (resync s i dts) i dts := if_pos h

theorem tssGetState_lt {c : Core μ} {i : Nat} (h : tssGetState c pidNum = some i) :
    i < c.layout.nbAllPids := by
  unfold tssGetState at h
  split at h
  · cases h
  · exact c.layout.streamIndexToPid_lt pidNum i h

theorem enqueueDts_effect (pidNum : Nat) (dts : Int) (isKey : Bool) :
    DtsEffect s pidNum dts isKey (tsshaperEnqueueDts s pidNum dts isKey) := by
  unfold tsshaperEnqueueDts
  split
  · rename_i hnone
    refine .ignored fun j h => ?_
    cases hnone.symm.trans h.1
  · rename_i i hi
    have hlt := tssGetState_lt hi
    split
    · rename_i hdts
      exact .ignored fun j h => h.2.1 hdts
    · rename_i hdts
      dsimp only
      split
      · rename_i hgo
        have harrives : Arrives s pidNum dts isKey i := ⟨hi, hdts, hgo⟩
        unfold placeDts
        split
        · rename_i hanchors
          have hresync := anchorAt_resyncs (s := (noteFrame s i isKey).1) (i := i)
            (by rw [noteFrame_layout]; exact hlt) dts
          rw [acceptDts_resyncs hresync]
          exact .anchored i hlt ⟨harrives, hanchors⟩
        · rename_i hanchors
          have hanchors := Bool.eq_false_iff.mpr hanchors
          split
          · rename_i hinvalid
            refine .noted i fun j => ⟨fun h => ?_, fun h => ?_⟩
            · obtain rfl := harrives.unique h.1
              cases hanchors.symm.trans h.2
            · obtain rfl := harrives.unique h.1
              cases hinvalid.symm.trans h.2.2.1
          · rename_i hvalid
            have hvalid := Bool.eq_false_iff.mpr hvalid
            unfold acceptDts
            split
            · rename_i hr
              exact .taken i harrives hanchors hvalid hr
            · rename_i hr
              have hasked : Asked s pidNum dts isKey i := ⟨harrives, hanchors, hvalid, hr⟩
              dsimp only
              split
              · rename_i htrans
                exact .translated i ⟨hasked, htrans⟩
              · rename_i hkeep
                exact .voted i hasked (Bool.eq_false_iff.mpr hkeep)
      · rename_i hstop
        have hnone : ∀ j, ¬ Arrives s pidNum dts isKey j := by
          intro j h
          have hj : j = i := Option.some.inj (h.1.symm.trans hi)
          rw [hj] at h
          exact hstop h.2.2
        exact .noted i fun j => ⟨fun h => hnone j h.1, fun h => hnone j h.1⟩

section Unique

variable {s : Tsshaper μ} {pidNum : Nat} {dts : Int} {isKey : Bool} {i : Nat}

theorem enqueueDts_accepted (h : Arrives s pidNum dts isKey i)
    (hanchors : anchors (noteFrame s i isKey).1 isKey = false)
    (hvalid : (noteFrame s i isKey).1.core.dtsEpochInvalid = false) :
    tsshaperEnqueueDts s pidNum dts isKey = acceptDts (noteFrame s i isKey).1 i dts := by
  obtain ⟨hstate, hdts, hgo⟩ := h
  unfold tsshaperEnqueueDts placeDts
  rw [hstate]
  dsimp only
  rw [if_neg hdts, if_pos hgo, if_neg (Bool.eq_false_iff.mp hanchors),
    if_neg (Bool.eq_false_iff.mp hvalid)]

theorem enqueueDts_anchored (h : AnchorsAt s pidNum dts isKey i) :
    tsshaperEnqueueDts s pidNum dts isKey =
      arrive (resync (anchorAt (noteFrame s i isKey).1 dts) i dts) i dts := by
  have heff := enqueueDts_effect s pidNum dts isKey
  generalize tsshaperEnqueueDts s pidNum dts isKey = t at heff ⊢
  cases heff with
  | ignored hnone => exact absurd h.1 (hnone i)
  | noted j hnone => exact absurd h (hnone i).1
  | anchored j hj hat =>
    obtain rfl := hat.1.unique h.1
    rfl
  | taken j hj hanchors hvalid hr =>
    obtain rfl := hj.unique h.1
    cases hanchors.symm.trans h.2
  | voted j hj hkeep =>
    obtain rfl := hj.1.unique h.1
    cases hj.2.1.symm.trans h.2
  | translated j hj =>
    obtain rfl := hj.1.1.unique h.1
    cases hj.1.2.1.symm.trans h.2

theorem enqueueDts_translated (h : TranslatesAt s pidNum dts isKey i) :
    tsshaperEnqueueDts s pidNum dts isKey =
      (tssVoterProcess (noteFrame s i isKey).1 i dts).1 := by
  have heff := enqueueDts_effect s pidNum dts isKey
  generalize tsshaperEnqueueDts s pidNum dts isKey = t at heff ⊢
  cases heff with
  | ignored hnone => exact absurd h.1.1 (hnone i)
  | noted j hnone => exact absurd h.1 (hnone i).2
  | anchored j hj hat =>
    obtain rfl := hat.1.unique h.1.1
    cases hat.2.symm.trans h.1.2.1
  | taken j hj hanchors hvalid hr =>
    obtain rfl := hj.unique h.1.1
    exact absurd hr h.1.2.2.2
  | voted j hj hkeep =>
    obtain rfl := hj.1.unique h.1.1
    cases hkeep.symm.trans h.2
  | translated j hj =>
    obtain rfl := hj.1.1.unique h.1.1
    rfl

end Unique

theorem tssVoterProcess_kept {s : Tsshaper μ} {i : Nat} (h : (tssVoterProcess s i dts).2 = false) :
    (tssVoterProcess s i dts).1.core = { s.core with
      pids := updPid s.core.pids i fun _ => (voterPid s.core.clock.physicalStc
        (isMaster s.core i) (s.core.pids i) (unwrapDelta (dts - s.timeline.lastDtsRaw i))).1 } ∧
      ((tssVoterProcess s i dts).1.timeline = s.timeline ∨
        (tssVoterProcess s i dts).1.timeline = s.timeline.setLastDts i dts) := by
  unfold tssVoterProcess at h ⊢
  dsimp only at h ⊢
  split at h
  · exact ⟨rfl, .inl rfl⟩
  · exact ⟨rfl, .inr rfl⟩
  · cases h

theorem tssVoterProcess_translated {s : Tsshaper μ} {i : Nat}
    (h : (tssVoterProcess s i dts).2 = true) :
    ∃ p jump, voterPid s.core.clock.physicalStc (isMaster s.core i) (s.core.pids i)
        (unwrapDelta (dts - s.timeline.lastDtsRaw i)) = (p, .translate jump) ∧
      (tssVoterProcess s i dts).1 =
        ⟨{ s.timeline with dtsOffset := s.timeline.dtsOffset + jump },
          translateCore { s.core with pids := updPid s.core.pids i fun _ => p } jump⟩ := by
  unfold tssVoterProcess at h ⊢
  dsimp only at h ⊢
  split at h
  · cases h
  · cases h
  · rename_i jump hv
    exact ⟨_, jump, Prod.ext rfl hv, rfl⟩

/-! ## A DTS without a jump -/

/-- Between `s` and `t` the shaper has not moved: the clocks stand, apart from the latest DTS, and
    so do the offset of the timeline, the programs and the output. -/
structure Still (s t : Tsshaper μ) : Prop where
  offset : t.timeline.dtsOffset = s.timeline.dtsOffset
  clock : ∃ maxDts, t.core.clock = { s.core.clock with maxDtsSeen := maxDts }
  programs : t.core.programs = s.core.programs
  pending : t.core.pendingDiscontinuity = s.core.pendingDiscontinuity
  out : t.core.out = s.core.out

theorem Still.refl : Still s s := ⟨rfl, ⟨_, rfl⟩, rfl, rfl, rfl⟩

theorem Still.trans {s t u : Tsshaper μ} (h : Still s t) (h' : Still t u) : Still s u := by
  obtain ⟨m, hm⟩ := h.clock
  obtain ⟨m', hm'⟩ := h'.clock
  refine ⟨h'.offset.trans h.offset, ⟨m', ?_⟩, h'.programs.trans h.programs,
    h'.pending.trans h.pending, h'.out.trans h.out⟩
  rw [hm', hm]

theorem noteFrame_still : Still s (noteFrame s i isKey).1 := by
  have hbeside := noteFrame_beside s i isKey
  exact ⟨congrArg Timeline.dtsOffset (noteFrame_timeline s i isKey), ⟨_, hbeside.clock⟩,
    hbeside.programs, hbeside.pending, hbeside.out⟩

theorem arrive_still (dts : Int) : Still s (arrive s i dts) := by
  refine ⟨?_, ?_, rfl, rfl, rfl⟩
  · dsimp only [arrive]
    split <;> rfl
  · dsimp only [arrive, arriveCore, raiseMaxDts]
    split
    · exact ⟨_, rfl⟩
    · exact ⟨_, rfl⟩

theorem votes_still {s : Tsshaper μ} {i : Nat} (h : (tssVoterProcess s i dts).2 = false) :
    Still s (tssVoterProcess s i dts).1 := by
  obtain ⟨hcore, htimeline⟩ := tssVoterProcess_kept h
  refine ⟨?_, ?_, ?_, ?_, ?_⟩
  · rcases htimeline with ht | ht
    · rw [ht]
    · rw [ht]
      rfl
  all_goals rw [hcore]
  exact ⟨_, rfl⟩

/-- **A DTS that does not jump** leaves the shaper where it is. -/
theorem enqueueDts_still {s : Tsshaper μ} {isKey : Bool}
    (hcalm : ¬ Jumps s (.enqueueDts pidNum dts isKey)) :
    Still s (tsshaperEnqueueDts s pidNum dts isKey) := by
  have hnote := fun i => noteFrame_still s i isKey
  have heff := enqueueDts_effect s pidNum dts isKey
  generalize tsshaperEnqueueDts s pidNum dts isKey = t at heff ⊢
  cases heff with
  | ignored h => exact .refl s
  | noted i h => exact hnote i
  | anchored i hi h => exact absurd ⟨i, .inl h⟩ hcalm
  | taken i h hanchors hvalid hr =>
    have hresync : Still (noteFrame s i isKey).1 (resync (noteFrame s i isKey).1 i dts) :=
      ⟨rfl, ⟨_, rfl⟩, rfl, rfl, rfl⟩
    exact (hnote i).trans (hresync.trans (arrive_still _ i dts))
  | voted i h hkeep => exact (hnote i).trans ((votes_still hkeep).trans (arrive_still _ i dts))
  | translated i h => exact absurd ⟨i, .inr h⟩ hcalm

/-! ## The PID table between two slots -/

/-- What the input path, the fuse and a reset do to a PID, the voter apart, moves it along `R`. -/
structure EntryStable (R : PidState → PidState → Prop) : Prop where
  note : ∀ p isKey, R p { p with isCurrentAuKey := isKey }
  resume : ∀ p, R p { p with state := .normal, waitIdrStartStc := 0, needResync := true }
  arrive : ∀ p bytes urgent, R p { p with rxBytesTotal := bytes, isUrgent := urgent }
  resync : ∀ p, R p { p with needResync := false }
  fuse : ∀ p, R p { p with tokensBits := 0, tokenRemainder := 0 }
  reset : ∀ p, R p { p with tsFifo := p.tsFifo.reset }

/-- So does the voter. -/
structure InputStable (R : PidState → PidState → Prop) : Prop extends EntryStable R where
  vote : ∀ physicalStc master p delta, R p (voterPid physicalStc master p delta).1

/-- What an anchor and a translation do to a PID moves it along `R`. -/
structure JumpStable (R : PidState → PidState → Prop) : Prop where
  translate : ∀ p, R p { p with
    tokensBits := reanchorTokens p
    streamOffset := (p.streamOffset * 1).tdiv 2
    state := .normal
    confirmStreak := 0
    needResync := true }
  reanchor : ∀ p, R p { p with
    tsFifo := p.tsFifo.drain p.tsFifo.size
    auEvents := p.auEvents.map fun _ => []
    bufferLevelBits := 0
    continuousFullnessBits := 0
    tbFullnessBits := 0 }
  restart : ∀ p, R p { p with
    last1sAcceptBytes := 0, tokensBits := reanchorTokens p, needResync := true }

/-- What is noted of a frame moves its PID along `R`. -/
theorem noted_across {R : PidState → PidState → Prop} (hR : Chain R)
    (hkey : ∀ p isKey, R p { p with isCurrentAuKey := isKey })
    (hresume : ∀ p, R p { p with state := .normal, waitIdrStartStc := 0, needResync := true })
    (s : Tsshaper μ) (i : Nat) (isKey : Bool) :
    Across R s.core.pids (noteFrame s i isKey).1.core.pids := by
  have hnote : Across R s.core.pids (noteKey s.core i isKey).pids := by
    dsimp only [noteKey]
    exact updPid_across hR _ _ _ (hkey _ _)
  unfold noteFrame
  dsimp only
  split
  · exact hnote
  · refine hnote.trans hR ?_
    unfold resumeFromWaitIdr
    split
    · exact updPid_across hR (noteKey s.core i isKey).pids i
        (fun p => { p with state := .normal, waitIdrStartStc := 0, needResync := true })
        (hresume _)
    · exact hR.across _

section Entry

variable {R : PidState → PidState → Prop} (hR : Chain R) (hE : EntryStable R)
include hR hE

variable (s : Tsshaper μ) (i : Nat) (dts : Int)

theorem noteFrame_across (isKey : Bool) : Across R s.core.pids (noteFrame s i isKey).1.core.pids :=
  noted_across hR hE.note hE.resume s i isKey

theorem arrive_across : Across R s.core.pids (arrive s i dts).core.pids := by
  dsimp only [arrive, arriveCore]
  exact updPid_across hR _ _ _ (hE.arrive _ _ _)

theorem resync_across : Across R s.core.pids (resync s i dts).core.pids := by
  dsimp only [resync]
  exact updPid_across hR _ _ _ (hE.resync _)

theorem taken_across : Across R s.core.pids (arrive (resync s i dts) i dts).core.pids :=
  (resync_across hR hE s i dts).trans hR (arrive_across hR hE _ i dts)

omit hE in
theorem anchorAt_across (hJ : JumpStable R) (s : Tsshaper μ) (dts : Int) :
    Across R s.core.pids (anchorAt s dts).core.pids := by
  refine Across.trans hR ?_ (mapPids_across hR _ _ hJ.restart)
  split
  · exact hR.across _
  · exact mapPids_across hR _ _ hJ.reanchor

theorem driveFuse_across (c : Core μ) : Across R c.pids (driveFuse c).pids := by
  unfold driveFuse
  dsimp only
  split
  · exact mapPids_across hR _ _ hE.fuse
  · exact hR.across _

end Entry

section Between

variable {R : PidState → PidState → Prop} (hR : Chain R) (hI : InputStable R)
include hR hI

variable {i : Nat} {dts : Int} {s : Tsshaper μ}

theorem votes_across (h : (tssVoterProcess s i dts).2 = false) :
    Across R s.core.pids (tssVoterProcess s i dts).1.core.pids := by
  rw [(tssVoterProcess_kept h).1]
  exact updPid_across hR _ i (fun _ => _) (hI.vote _ _ _ _)

theorem voted_across (h : (tssVoterProcess s i dts).2 = false) :
    Across R s.core.pids (arrive (tssVoterProcess s i dts).1 i dts).core.pids :=
  (votes_across hR hI h).trans hR (arrive_across hR hI.toEntryStable _ i dts)

theorem translates_across (hJ : JumpStable R) (h : (tssVoterProcess s i dts).2 = true) :
    Across R s.core.pids (tssVoterProcess s i dts).1.core.pids := by
  obtain ⟨p, jump, hv, heq⟩ := tssVoterProcess_translated h
  rw [heq]
  refine Across.trans hR ?_ (mapPids_across hR _ _ hJ.translate)
  have hvote := hI.vote s.core.clock.physicalStc (isMaster s.core i) (s.core.pids i)
    (unwrapDelta (dts - s.timeline.lastDtsRaw i))
  rw [hv] at hvote
  exact updPid_across hR _ i (fun _ => _) hvote

theorem enqueueDts_calm {pidNum : Nat} {isKey : Bool}
    (hcalm : ¬ Jumps s (.enqueueDts pidNum dts isKey)) :
    Across R s.core.pids (tsshaperEnqueueDts s pidNum dts isKey).core.pids := by
  have hnote := fun i => noteFrame_across hR hI.toEntryStable s i isKey
  have heff := enqueueDts_effect s pidNum dts isKey
  generalize tsshaperEnqueueDts s pidNum dts isKey = t at heff ⊢
  cases heff with
  | ignored h => exact hR.across _
  | noted i h => exact hnote i
  | anchored i hi h => exact absurd ⟨i, .inl h⟩ hcalm
  | taken i h hanchors hvalid hr =>
    exact (hnote i).trans hR (taken_across hR hI.toEntryStable _ i dts)
  | voted i h hkeep => exact (hnote i).trans hR (voted_across hR hI hkeep)
  | translated i h => exact absurd ⟨i, .inr h⟩ hcalm

theorem enqueueDts_across (hJ : JumpStable R) (s : Tsshaper μ) (pidNum : Nat) (dts : Int)
    (isKey : Bool) : Across R s.core.pids (tsshaperEnqueueDts s pidNum dts isKey).core.pids := by
  have hnote := fun i => noteFrame_across hR hI.toEntryStable s i isKey
  by_cases hcalm : Jumps s (.enqueueDts pidNum dts isKey)
  · obtain ⟨i, h | h⟩ := hcalm
    · rw [enqueueDts_anchored h]
      exact (hnote i).trans hR ((anchorAt_across hR hJ _ dts).trans hR
        (taken_across hR hI.toEntryStable _ i dts))
    · rw [enqueueDts_translated h]
      exact (hnote i).trans hR (translates_across hR hI hJ h.2)
  · exact enqueueDts_calm hR hI hcalm

end Between

section Runs

variable {R : PidState → PidState → Prop} (hA : AfterStable R)
include hA

def Event.IsDts : Event → Prop
  | .enqueueDts .. => True
  | _ => False

/-- **Between two slots**, without a DTS. -/
theorem eventStep_plain (hE : EntryStable R) (si : SiCallback μ) (s : Tsshaper μ) {e : Event}
    (hslot : e ≠ .slot) (hdts : ¬ e.IsDts) : Across R s.core.pids (eventStep si s e).core.pids := by
  have hR := hA.toChain
  cases e with
  | enqueueDts pidNum dts isKey => exact absurd trivial hdts
  | enqueueTs pidNum pkt => exact enqueueTs_across hA s.core pidNum pkt
  | enterDrive => exact driveFuse_across hR hE { s.core with inDrive := true }
  | slot => exact absurd rfl hslot
  | leaveDrive | enterDrain => exact hR.across _
  | resetTimeline => exact mapPids_across hR _ _ hE.reset

/-- **Between two slots**, without a jump. -/
theorem eventStep_calm (hI : InputStable R) (si : SiCallback μ) {s : Tsshaper μ} {e : Event}
    (hslot : e ≠ .slot) (hcalm : ¬ Jumps s e) :
    Across R s.core.pids (eventStep si s e).core.pids := by
  cases e with
  | enqueueDts pidNum dts isKey => exact enqueueDts_calm hA.toChain hI hcalm
  | _ => exact eventStep_plain hA hI.toEntryStable si s hslot id

/-- **Between two slots**, jumps included. -/
theorem eventStep_between (hI : InputStable R) (hJ : JumpStable R) (si : SiCallback μ)
    (s : Tsshaper μ) {e : Event} (hslot : e ≠ .slot) :
    Across R s.core.pids (eventStep si s e).core.pids := by
  cases e with
  | enqueueDts pidNum dts isKey => exact enqueueDts_across hA.toChain hI hJ s pidNum dts isKey
  | _ => exact eventStep_plain hA hI.toEntryStable si s hslot id

end Runs

/-! ## Set-up -/

/-- A shaper after its set-up: no clock runs, no DTS has come, nothing was sent, and every PID is as
    `tsshaper_add_pid` creates it.  Layout and programs are the muxer's. -/
structure SetUp (s : Tsshaper μ) : Prop where
  timeline : s.timeline = Timeline.init
  clock : s.core.clock = Clock.init
  valid : s.core.dtsEpochInvalid = false
  pending : s.core.pendingDiscontinuity = false
  out : s.core.out = []
  pids : ∀ i, i < s.core.layout.nbAllPids →
    ∃ pidNum type br, s.core.pids i = newPid s.core.cfg pidNum type br

theorem oneStream_setUp (cfg : Config) (pcrPacketPeriod : Int) :
    SetUp ⟨Timeline.init, oneStream cfg pcrPacketPeriod⟩ :=
  ⟨rfl, rfl, rfl, rfl, rfl, fun _ _ => ⟨_, _, _, rfl⟩⟩

/-- What never changes once a shaper is set up. -/
structure SameSetUp (c d : Core μ) : Prop where
  cfg : d.cfg = c.cfg
  layout : d.layout = c.layout

theorem SameSetUp.trans {a b c : Core μ} (h : SameSetUp a b) (h' : SameSetUp b c) :
    SameSetUp a c := ⟨h'.cfg.trans h.cfg, h'.layout.trans h.layout⟩

theorem Beside.sameSetUp {c d : Core μ} (h : Beside c d) : SameSetUp c d := ⟨h.cfg, h.layout⟩

theorem noteFrame_sameSetUp :
    SameSetUp s.core (noteFrame s i isKey).1.core := (noteFrame_beside s i isKey).sameSetUp

theorem enqueueDts_sameSetUp (pidNum : Nat) (dts : Int) (isKey : Bool) :
    SameSetUp s.core (tsshaperEnqueueDts s pidNum dts isKey).core := by
  have hnote := fun i => noteFrame_sameSetUp s i isKey
  have heff := enqueueDts_effect s pidNum dts isKey
  generalize tsshaperEnqueueDts s pidNum dts isKey = t at heff ⊢
  cases heff with
  | ignored h => exact ⟨rfl, rfl⟩
  | noted i h => exact hnote i
  | anchored i hi h =>
    refine (hnote i).trans ?_
    dsimp only [arrive, arriveCore, resync, anchorAt, restartPids]
    split <;> exact ⟨rfl, rfl⟩
  | taken i h hanchors hvalid hr => exact (hnote i).trans ⟨rfl, rfl⟩
  | voted i h hkeep =>
    have hcore := (tssVoterProcess_kept hkeep).1
    have hvoted : SameSetUp (noteFrame s i isKey).1.core
        (tssVoterProcess (noteFrame s i isKey).1 i dts).1.core := by
      rw [hcore]
      exact ⟨rfl, rfl⟩
    exact (hnote i).trans (hvoted.trans ⟨rfl, rfl⟩)
  | translated i h =>
    obtain ⟨p, jump, -, heq⟩ := tssVoterProcess_translated h.2
    rw [heq]
    exact (hnote i).trans ⟨rfl, rfl⟩

theorem emit_sameSetUp (c : Core μ) (a : Action) : SameSetUp c (emit c a) :=
  ⟨(emit_clock c a).1, emit_layout c a⟩

theorem slot_sameSetUp (si : SiCallback μ) (c : Core μ) : SameSetUp c (tssStepInternal si c) := by
  unfold tssStepInternal
  split
  · exact ⟨rfl, rfl⟩
  · have hchosen : SameSetUp c (scheduled c).1 := ⟨rfl, rfl⟩
    have hsent := hchosen.trans (emit_sameSetUp (scheduled c).1 (scheduled c).2)
    have hpost := (postEmission_beside si (emit (scheduled c).1 (scheduled c).2)
      (nextPhysicalStc c)).sameSetUp
    exact hsent.trans ⟨hpost.cfg, hpost.layout⟩

theorem eventStep_sameSetUp (si : SiCallback μ) (s : Tsshaper μ) (e : Event) :
    SameSetUp s.core (eventStep si s e).core := by
  cases e with
  | enqueueDts pidNum dts isKey => exact enqueueDts_sameSetUp s pidNum dts isKey
  | enqueueTs pidNum pkt => exact (tsshaperEnqueueTs_beside _ _ _).sameSetUp
  | enterDrive =>
    show SameSetUp s.core (driveFuse { s.core with inDrive := true })
    unfold driveFuse
    dsimp only
    split <;> exact ⟨rfl, rfl⟩
  | slot => exact slot_sameSetUp si s.core
  | _ => exact ⟨rfl, rfl⟩

end TsAnalyzer.Shaper
