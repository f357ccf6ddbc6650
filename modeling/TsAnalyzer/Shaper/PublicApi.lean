/-
  Does the public API start the timeline?

  `tsshaper_add_pid` enters a PID into `pid_map` and `all_pids`; `tsshaper_enqueue_dts` looks its
  argument up in ANOTHER table, `stream_index_to_pid`, which `tsshaper_create` clears and no
  function of the library fills.
-/
import TsAnalyzer.Shaper.Discontinuity
import TsAnalyzer.Shaper.Translation

namespace TsAnalyzer.Shaper

open Lib

variable {μ : Type}

/-! ## Calls -/

/-- What a user of `tsshaper.h` can call between `tsshaper_create` and `tsshaper_destroy`. -/
inductive ApiCall where
  | addPid (pidNum : Nat) (type : PidType) (br : Nat)
  | call (c : Call)

def apiStep (si : SiCallback μ) (s : Tsshaper μ) : ApiCall → Tsshaper μ
  | .addPid pidNum type br => (tsshaperAddPid s pidNum type br).getD s
  | .call c => callStep si s c

/-- What `tsshaper_add_pid` leaves alone. -/
theorem addPid_kept (s : Tsshaper μ) (pidNum : Nat) (type : PidType) (br : Nat) :
    let t := (tsshaperAddPid s pidNum type br).getD s
    t.core.clock = s.core.clock ∧ t.core.cfg = s.core.cfg ∧
      t.core.layout.streamIndexToPid = s.core.layout.streamIndexToPid ∧
      t.core.dtsEpochInvalid = s.core.dtsEpochInvalid ∧ t.core.out = s.core.out ∧
      t.timeline.firstDts = s.timeline.firstDts := by
  unfold tsshaperAddPid
  split <;> exact ⟨rfl, rfl, rfl, rfl, rfl, rfl⟩

variable (si : SiCallback μ)

theorem callStep_sameSetUp (s : Tsshaper μ) (c : Call) :
    SameSetUp s.core (callStep si s c).core := by
  obtain ⟨events, hevents⟩ := callStep_events si s c
  rw [hevents]
  exact along_inv (R := fun _ _ => True) (I := fun t => SameSetUp s.core t.core)
    (fun t e ht _ => ht.trans (eventStep_sameSetUp si t e)) events s ⟨rfl, rfl⟩
    (along_true _ _ _) events (List.prefix_refl _)

/-- **No call fills the table of the streams.** -/
theorem apiStep_getState (s : Tsshaper μ) (call : ApiCall) (pidNum : Nat) :
    tssGetState (apiStep si s call).core pidNum = tssGetState s.core pidNum := by
  unfold tssGetState
  cases call with
  | addPid n type br =>
    obtain ⟨-, hcfg, hstreams, -⟩ := addPid_kept s n type br
    show (if pidNum ≥ ((tsshaperAddPid s n type br).getD s).core.cfg.nbStreams then _ else _) = _
    rw [hcfg,
      show (apiStep si s (.addPid n type br)).core.layout.streamIndexToPid = _ from hstreams]
  | call c =>
    obtain ⟨hcfg, hlayout⟩ := callStep_sameSetUp si s c
    show (if pidNum ≥ (callStep si s c).core.cfg.nbStreams then _ else
      (callStep si s c).core.layout.streamIndexToPid pidNum) = _
    rw [hcfg, hlayout]

/-! ## The clock -/

/-- No clock, and the next key frame anchors the timeline. -/
structure Halted (s : Tsshaper μ) : Prop where
  vStc : s.core.clock.vStc = noptsValue
  awaits : s.timeline.firstDts = noptsValue ∨ s.core.dtsEpochInvalid = true

/-- The clock is set, at a time that is not taken for `TSS_NOPTS_VALUE`. -/
structure Running (c : Core μ) : Prop where
  vStc : noptsValue < c.clock.vStc
  base : noptsValue < c.clock.stcBase

variable {c : Core μ}

theorem Running.ne (h : Running c) : c.clock.vStc ≠ noptsValue := Int.ne_of_gt h.vStc

theorem Running.same {d : Core μ} (h : Running c) (hv : d.clock.vStc = c.clock.vStc)
    (hbase : d.clock.stcBase = c.clock.stcBase) : Running d := by
  refine ⟨?_, ?_⟩
  · rw [hv]
    exact h.vStc
  · rw [hbase]
    exact h.base

/-- A vote that is completed does not carry the clock down to `TSS_NOPTS_VALUE`, the least value of
    its type. -/
def InRange (s : Tsshaper μ) : ApiCall → Prop
  | .call (.enqueueDts pidNum dts isKey) =>
    ∀ i ∈ (tssGetState s.core pidNum).toList, TranslatesAt s pidNum dts isKey i →
      noptsValue < s.core.clock.stcBase + (s.core.pids i).candidateJump
  | _ => True

instance (s : Tsshaper μ) : (call : ApiCall) → Decidable (InRange s call)
  | .call (.enqueueDts ..) => inferInstanceAs (Decidable (∀ i ∈ _, _ → _))
  | .call (.enqueueTs ..) => isTrue trivial
  | .call .drive => isTrue trivial
  | .call (.drain _) => isTrue trivial
  | .call .resetTimeline => isTrue trivial
  | .addPid .. => isTrue trivial

theorem Running.slot (h : Running c) (si : SiCallback μ) : Running (tssStepInternal si c) := by
  by_cases hdue : Due c
  · have hclock := slot_clock si hdue
    have hbase := h.base
    have hticks := ticksPerPacket_nonneg c.cfg
    have hnew : noptsValue < (advanceStc c.cfg c.clock).vStc ∧
        noptsValue < (advanceStc c.cfg c.clock).stcBase := by
      unfold advanceStc
      rw [if_neg (Int.ne_of_gt hbase)]
      dsimp only
      split <;> omega
    constructor
    · rw [hclock]
      exact hnew.1
    · rw [hclock]
      exact hnew.2
  · rw [tssStepInternal_notDue si hdue]
    exact h

theorem Running.slots (n : Nat) :
    ∀ {c : Core μ}, Running c → Running ((tssStepInternal si)^[n] c) := by
  induction n with
  | zero => exact fun h => h
  | succ n ih => exact fun h => ih (h.slot si)

theorem Running.fuse (h : Running c) : Running (driveFuse c) := by
  unfold driveFuse
  split
  · rename_i hblows
    have hlag : driveTarget c - c.clock.vStc > sysClockFreq * 3 := of_decide_eq_true hblows
    have hv := h.vStc
    have hpos : (0 : Int) < sysClockFreq * 3 := by decide
    have htarget : noptsValue < driveTarget c := by omega
    exact ⟨htarget, htarget⟩
  · exact h

variable {s : Tsshaper μ}

theorem Running.call (h : Running s.core) (si : SiCallback μ) {c : Call}
    (hdts : ∀ pidNum dts isKey, c ≠ .enqueueDts pidNum dts isKey) (hreset : c ≠ .resetTimeline) :
    Running (callStep si s c).core := by
  cases c with
  | enqueueDts pidNum dts isKey => exact absurd rfl (hdts pidNum dts isKey)
  | enqueueTs pidNum pkt =>
    have hclock := (tsshaperEnqueueTs_beside s.core pidNum pkt).clock
    exact h.same (congrArg Clock.vStc hclock) (congrArg Clock.stcBase hclock)
  | drive =>
    show Running (tsshaperDrive si s.core)
    unfold tsshaperDrive
    split
    · exact h
    · have hentered : Running { s.core with inDrive := true } := h.same rfl rfl
      obtain ⟨n, hn⟩ := driveLoop_slots si (driveTarget s.core) maxDriveSteps
        (driveFuse { s.core with inDrive := true })
      have hrun := Running.slots si n hentered.fuse
      rw [← hn] at hrun
      exact hrun.same rfl rfl
  | drain fuel =>
    show Running (tsshaperDrain si fuel s.core)
    unfold tsshaperDrain
    split
    · exact h
    · have hentered : Running { s.core with inDrain := true } := h.same rfl rfl
      obtain ⟨n, hn⟩ := drainLoop_slots si s.core.clock.vStc fuel { s.core with inDrain := true }
      rw [hn]
      exact Running.slots si n hentered
  | resetTimeline => exact absurd rfl hreset

theorem Halted.noted (h : Halted s) (i : Nat) (isKey : Bool) : Halted (noteFrame s i isKey).1 := by
  refine ⟨?_, ?_⟩
  · rw [noteFrame_clock]
    exact h.vStc
  · rw [noteFrame_timeline]
    refine h.awaits.imp_right fun hinvalid => ?_
    unfold noteFrame resumeFromWaitIdr
    dsimp only
    split
    · exact hinvalid
    · split
      · rfl
      · exact hinvalid

theorem Halted.awaiting (h : Halted s) {isKey : Bool}
    (hanchors : anchors s isKey = false) : s.core.dtsEpochInvalid = true := by
  rcases h.awaits with hfirst | hinvalid
  · exact absurd (decide_eq_true (.inl hfirst)) (Bool.eq_false_iff.mp hanchors)
  · exact hinvalid

/-- **The first anchor starts the clock.** -/
theorem anchorAt_running (h : s.core.clock.vStc = noptsValue) (i : Nat) (dts : Int) :
    Running (arrive (resync (anchorAt s dts) i dts) i dts).core := by
  have hdelay : 0 ≤ s.core.cfg.muxDelay27m := by
    unfold Config.muxDelay27m Config.delayMs
    split <;> omega
  have hbase : noptsValue < (s.core.cfg.muxDelay27m * 9).tdiv 10 - 400 * 27000 := by
    have hnonneg := Int.tdiv_nonneg (Int.mul_nonneg hdelay (by decide : (0 : Int) ≤ 9))
      (by decide : (0 : Int) ≤ 10)
    unfold noptsValue
    omega
  have hclock : (anchorAt s dts).core.clock.vStc =
        (s.core.cfg.muxDelay27m * 9).tdiv 10 - 400 * 27000 ∧
      (anchorAt s dts).core.clock.stcBase =
        (s.core.cfg.muxDelay27m * 9).tdiv 10 - 400 * 27000 := by
    dsimp only [anchorAt, restartPids]
    rw [if_pos h]
    exact ⟨rfl, rfl⟩
  obtain ⟨m, hm⟩ := (arrive_still (resync (anchorAt s dts) i dts) i dts).clock
  constructor
  · rw [hm]
    show noptsValue < (anchorAt s dts).core.clock.vStc
    rw [hclock.1]
    exact hbase
  · rw [hm]
    show noptsValue < (anchorAt s dts).core.clock.stcBase
    rw [hclock.2]
    exact hbase

theorem Halted.anchorsAt (h : Halted s) {pidNum i : Nat} {dts : Int}
    (hstate : tssGetState s.core pidNum = some i) (hdts : dts ≠ noptsValue) :
    AnchorsAt s pidNum dts true i := by
  have hgo : (noteFrame s i true).2 = true := by
    unfold noteFrame
    rw [if_neg fun hwait => hwait.2.1 rfl]
  refine ⟨⟨hstate, hdts, hgo⟩, decide_eq_true ?_⟩
  exact (h.noted i true).awaits.imp_right fun hinvalid => ⟨hinvalid, rfl⟩

/-- **A DTS on a halted clock** leaves it halted, which no key frame of a stream with a PID does, or
    starts it. -/
theorem Halted.dts (h : Halted s) (pidNum : Nat) (dts : Int) (isKey : Bool) :
    (Halted (tsshaperEnqueueDts s pidNum dts isKey) ∧
        (isKey = true → dts ≠ noptsValue → tssGetState s.core pidNum = none)) ∨
      (Running (tsshaperEnqueueDts s pidNum dts isKey).core ∧
        (tssGetState s.core pidNum).isSome = true) := by
  -- a key frame that anchors nothing belongs to no PID
  have hnone : (∀ i, ¬ AnchorsAt s pidNum dts isKey i) → isKey = true → dts ≠ noptsValue →
      tssGetState s.core pidNum = none := by
    rintro hnot rfl hdts
    exact Option.eq_none_iff_forall_ne_some.mpr fun i hi => hnot i (h.anchorsAt hi hdts)
  have hinvalid : ∀ {i}, anchors (noteFrame s i isKey).1 isKey = false →
      ¬ (noteFrame s i isKey).1.core.dtsEpochInvalid = false := by
    intro i hanchors hvalid
    cases hvalid.symm.trans ((h.noted i isKey).awaiting hanchors)
  have heff := enqueueDts_effect s pidNum dts isKey
  generalize tsshaperEnqueueDts s pidNum dts isKey = t at heff ⊢
  cases heff with
  | ignored hno => exact .inl ⟨h, hnone fun i hi => hno i hi.1⟩
  | noted i hno => exact .inl ⟨h.noted i isKey, hnone fun j => (hno j).1⟩
  | anchored i hi hat =>
    refine .inr ⟨anchorAt_running ?_ i dts, Option.isSome_iff_exists.mpr ⟨i, hat.1.1⟩⟩
    rw [noteFrame_clock]
    exact h.vStc
  | taken i hi hanchors hvalid hr => exact absurd hvalid (hinvalid hanchors)
  | voted i hi hkeep => exact absurd hi.2.2.1 (hinvalid hi.2.1)
  | translated i hi => exact absurd hi.1.2.2.1 (hinvalid hi.1.2.1)

/-- **A DTS on a running clock** leaves it running. -/
theorem Running.dts (h : Running s.core) {pidNum : Nat} {dts : Int} {isKey : Bool}
    (hrange : InRange s (.call (.enqueueDts pidNum dts isKey))) :
    Running (tsshaperEnqueueDts s pidNum dts isKey).core := by
  by_cases hcalm : Jumps s (.enqueueDts pidNum dts isKey)
  · obtain ⟨i, hanchor | htrans⟩ := hcalm
    · have hclock := noteFrame_clock s i isKey
      have hne : (noteFrame s i isKey).1.core.clock.vStc ≠ noptsValue := by
        rw [hclock]
        exact h.ne
      obtain ⟨hv, -, hbase, -⟩ := anchorAt_hard hne dts
      rw [hclock] at hv hbase
      obtain ⟨m, hm⟩ :=
        (arrive_still (resync (anchorAt (noteFrame s i isKey).1 dts) i dts) i dts).clock
      rw [enqueueDts_anchored hanchor]
      exact h.same ((congrArg Clock.vStc hm).trans hv) ((congrArg Clock.stcBase hm).trans hbase)
    · obtain ⟨-, -, hv, -⟩ := translated_clock htrans
      have hbase : (tsshaperEnqueueDts s pidNum dts isKey).core.clock.stcBase =
          (tsshaperEnqueueDts s pidNum dts isKey).core.clock.vStc := by
        obtain ⟨p, jump, -, heq⟩ := tssVoterProcess_translated htrans.2
        rw [enqueueDts_translated htrans, heq]
        rfl
      have hlt := hrange i (Option.mem_toList.mpr htrans.1.1.1) htrans
      constructor
      · rw [hv]
        exact hlt
      · rw [hbase, hv]
        exact hlt
  · obtain ⟨m, hm⟩ := (enqueueDts_still hcalm).clock
    exact h.same (by rw [hm]) (by rw [hm])

/-! ## Runs -/

theorem enqueueTs_invalid (pidNum : Nat) (pkt : Packet)
    (h : c.dtsEpochInvalid = true) : (tsshaperEnqueueTs c pidNum pkt).dtsEpochInvalid = true := by
  unfold tsshaperEnqueueTs
  split
  · exact h
  · exact decide_eq_true (.inl h)

theorem callStep_halted (h : s.core.clock.vStc = noptsValue) :
    callStep si s .drive = s ∧ ∀ fuel, callStep si s (.drain fuel) = s := by
  constructor
  · show ({ s with core := tsshaperDrive si s.core } : Tsshaper μ) = s
    unfold tsshaperDrive
    rw [if_pos (.inl h)]
  · intro fuel
    show ({ s with core := tsshaperDrain si fuel s.core } : Tsshaper μ) = s
    unfold tsshaperDrain
    rw [if_pos h]

/-- **One call**: the clock is halted and waits for a key frame, or it runs. -/
theorem apiStep_clocked {call : ApiCall} (h : Halted s ∨ Running s.core) (hrange : InRange s call) :
    Halted (apiStep si s call) ∨ Running (apiStep si s call).core := by
  cases call with
  | addPid pidNum type br =>
    obtain ⟨hclock, -, -, hinvalid, -, hfirst⟩ := addPid_kept s pidNum type br
    have hv := congrArg Clock.vStc hclock
    rcases h with hhalt | hrun
    · exact .inl ⟨hv.trans hhalt.vStc, hhalt.awaits.imp hfirst.trans hinvalid.trans⟩
    · exact .inr (hrun.same hv (congrArg Clock.stcBase hclock))
  | call c =>
    rcases h with hhalt | hrun
    · cases c with
      | enqueueDts pidNum dts isKey =>
        exact (hhalt.dts pidNum dts isKey).imp And.left And.left
      | enqueueTs pidNum pkt =>
        have hclock := (tsshaperEnqueueTs_beside s.core pidNum pkt).clock
        refine .inl ⟨(congrArg Clock.vStc hclock).trans hhalt.vStc, ?_⟩
        exact hhalt.awaits.imp_right (enqueueTs_invalid pidNum pkt)
      | drive =>
        refine .inl ?_
        show Halted (callStep si s .drive)
        rw [(callStep_halted si hhalt.vStc).1]
        exact hhalt
      | drain fuel =>
        refine .inl ?_
        show Halted (callStep si s (.drain fuel))
        rw [(callStep_halted si hhalt.vStc).2 fuel]
        exact hhalt
      | resetTimeline => exact .inl ⟨rfl, .inr rfl⟩
    · cases c with
      | enqueueDts pidNum dts isKey => exact .inr (hrun.dts hrange)
      | resetTimeline => exact .inl ⟨rfl, .inr rfl⟩
      | _ => exact .inr (hrun.call si (fun _ _ _ => Call.noConfusion) Call.noConfusion)

theorem SetUp.halted (hs : SetUp s) : Halted s := by
  refine ⟨?_, .inl ?_⟩
  · rw [hs.clock]
    rfl
  · rw [hs.timeline]
    rfl

/-- **Who starts the clock**, in every run of calls on a shaper whose table of streams may have been
    filled by the program around it: after a key frame the clock is set exactly if it was before, or
    if the stream has a PID in that table. -/
theorem timeline_starts_iff (si : SiCallback μ) (s : Tsshaper μ) (hs : SetUp s)
    (calls : List ApiCall) (pidNum : Nat) (dts : Int) (hdts : dts ≠ noptsValue)
    (hrange : Along InRange (apiStep si) s (calls ++ [.call (.enqueueDts pidNum dts true)])) :
    let t := calls.foldl (apiStep si) s
    (apiStep si t (.call (.enqueueDts pidNum dts true))).core.clock.vStc ≠ noptsValue ↔
      t.core.clock.vStc ≠ noptsValue ∨ (tssGetState s.core pidNum).isSome = true := by
  intro t
  obtain ⟨hcalls, hlast, -⟩ := along_append.mp hrange
  obtain ⟨hclocked, hstate⟩ : (Halted t ∨ Running t.core) ∧
      tssGetState t.core pidNum = tssGetState s.core pidNum :=
    along_inv (I := fun t => (Halted t ∨ Running t.core) ∧
        tssGetState t.core pidNum = tssGetState s.core pidNum)
      (fun u call hu hin => ⟨apiStep_clocked si hu.1 hin,
        (apiStep_getState si u call pidNum).trans hu.2⟩)
      calls s ⟨.inl hs.halted, rfl⟩ hcalls calls (List.prefix_refl _)
  rw [← hstate]
  rcases hclocked with hhalt | hrun
  · rcases hhalt.dts pidNum dts true with ⟨hstill, hnone⟩ | ⟨hstarted, hsome⟩
    · refine iff_of_false (fun h => h hstill.vStc) ?_
      rintro (h | h)
      · exact h hhalt.vStc
      · rw [hnone rfl hdts] at h
        cases h
    · exact iff_of_true hstarted.ne (.inr hsome)
  · exact iff_of_true (hrun.dts hlast).ne (.inl hrun.ne)

/-- A muxer that has filled the table of streams starts its timeline, with a PID added later. -/
theorem oneStream_starts :
    let s : Tsshaper Unit := ⟨Timeline.init, oneStream ⟨10000000, 35, 0, 0, 1⟩ 100⟩
    (apiStep noTables (apiStep noTables s (.addPid 0x101 .audio 128000))
      (.call (.enqueueDts 0 0 true))).core.clock.vStc ≠ noptsValue :=
  (timeline_starts_iff noTables _ (oneStream_setUp _ _) [.addPid 0x101 .audio 128000] 0 0
    (by decide)
    (by decide +kernel)).mpr (.inr (by decide))

/-- **PID 0x100 is added, its key frame comes, and no clock is set.** -/
theorem addPid_unstarted :
    let cfg : Config := ⟨10000000, 35, 0, 0, 1⟩
    let s := tsshaperCreate cfg (oneStream cfg 100).programs ()
    let t := [ApiCall.addPid 0x100 .video 4000000, .call (.enqueueDts 0x100 0 true)].foldl
      (apiStep noTables) s
    t.core.layout.pidMap 0x100 = some 0 ∧ t.core.clock.vStc = noptsValue := by
  decide +kernel

end TsAnalyzer.Shaper
