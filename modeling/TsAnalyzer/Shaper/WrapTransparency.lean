/-
  The 33-bit wrap of the DTS, seen from the shaper.

  A run that is fed DTS values reduced modulo `2^33 * 300` against the run that is fed the unwrapped
  values.  Two runs are in step (`InStep`) while their cores are EQUAL and their timelines differ by
  whole epochs: `Wraps K` says that the anchor, the offset and every `last_dts_raw` that will be
  used again lie `K` moduli apart.

  Only the voter unwraps.  `rel_dts` is `input - dts_offset` on raw values, so the runs part at the
  first DTS that has left the epoch of the anchor, `first_dts / 2^33·300` (`wrap_visible`): until
  then nothing tells them apart (`wrap_transparent`).
-/
import TsAnalyzer.Lib.Run
import TsAnalyzer.Shaper.Slot

namespace TsAnalyzer.Shaper

open Lib

variable {μ : Type}

/-! ## Two runs -/

/-- The call with its DTS reduced modulo `2^33 * 300`. -/
def Call.reduced : Call → Call
  | .enqueueDts pidNum dts isKey => .enqueueDts pidNum (dts % timelineModulo) isKey
  | call => call

/-- The timelines `u` and `w` lie `K` moduli apart.  A PID that will resync has no last DTS to
    keep. -/
structure Wraps (K : Int) (c : Core μ) (u w : Timeline) : Prop where
  offset : u.dtsOffset = w.dtsOffset + K * timelineModulo
  first : (u.firstDts = noptsValue ∧ w.firstDts = noptsValue) ∨
    (u.firstDts ≠ noptsValue ∧ w.firstDts ≠ noptsValue ∧ u.firstDts / timelineModulo = K)
  last : ∀ i, i < c.layout.nbAllPids →
    (u.lastDtsRaw i = noptsValue ∧ w.lastDtsRaw i = noptsValue) ∨
      (u.lastDtsRaw i ≠ noptsValue ∧ w.lastDtsRaw i ≠ noptsValue ∧
        ((c.pids i).needResync = true ∨ u.lastDtsRaw i = w.lastDtsRaw i + K * timelineModulo))

/-- Equal cores, and timelines that lie whole moduli apart. -/
def InStep (u w : Tsshaper μ) : Prop :=
  u.core = w.core ∧ ∃ K, Wraps K u.core u.timeline w.timeline

/-! ## A resync that is due stays due -/

/-- `need_resync` is set, by a slot or by an arriving packet, but never cleared. -/
def ResyncKept (p q : PidState) : Prop := p.needResync = true → q.needResync = true

theorem resyncKept_upkeep : UpkeepStable ResyncKept where
  refl _ h := h
  trans hpq hqr h := hqr (hpq h)
  receive _ _ h := h
  wait _ _ h := h
  resume _ _ := rfl
  shed _ _ _ := rfl
  store _ _ _ _ _ h := h
  take _ _ _ h := h
  panic _ _ h := h
  decode _ _ _ h := h
  measure _ _ _ _ _ _ _ _ h := h
  pacing _ _ _ h := h
  deadline _ _ _ h := h
  window _ _ _ _ h := h
  fullness _ _ h := h
  burst _ _ h := h

theorem resyncKept_stable : SlotStable ResyncKept :=
  resyncKept_upkeep.slot (fun _ _ h => h) (fun _ h => h) fun _ _ h => h

/-- The core `d` has the PIDs of `c`, with every due resync still due. -/
def CoreKept (c d : Core μ) : Prop :=
  d.layout = c.layout ∧ Across ResyncKept c.pids d.pids

theorem CoreKept.refl (c : Core μ) : CoreKept c c := ⟨rfl, resyncKept_stable.chain.across _⟩

variable {c : Core μ}

variable {d : Core μ} {dts : Int} {i : Nat}

theorem CoreKept.trans {e : Core μ} (h : CoreKept c d) (h' : CoreKept d e) : CoreKept c e :=
  ⟨h'.1.trans h.1, h.2.trans resyncKept_stable.chain h'.2⟩

theorem tssStepInternal_kept (si : SiCallback μ) (c : Core μ) : CoreKept c (tssStepInternal si c) :=
  ⟨tssStepInternal_layout si c, tssStepInternal_pids resyncKept_stable si c⟩

theorem tsshaperEnqueueTs_kept (c : Core μ) (pidNum : Nat) (pkt : Packet) :
    CoreKept c (tsshaperEnqueueTs c pidNum pkt) :=
  ⟨(tsshaperEnqueueTs_beside c pidNum pkt).layout,
    enqueueTs_across resyncKept_stable.after c pidNum pkt⟩

theorem driveFuse_kept (c : Core μ) : CoreKept c (driveFuse c) := by
  unfold driveFuse
  dsimp only
  split
  · exact ⟨rfl, mapPids_across resyncKept_stable.chain _ _ fun _ h => h⟩
  · exact .refl c

theorem slots_kept (si : SiCallback μ) (n : Nat) (c : Core μ) :
    CoreKept c ((tssStepInternal si)^[n] c) :=
  Function.Iterate.rec (CoreKept c) (.refl c) (fun d hd => hd.trans (tssStepInternal_kept si d)) n

theorem tsshaperDrive_kept (si : SiCallback μ) (c : Core μ) : CoreKept c (tsshaperDrive si c) := by
  unfold tsshaperDrive
  split
  · exact .refl c
  · have hfuse : CoreKept c (driveFuse { c with inDrive := true }) := driveFuse_kept _
    obtain ⟨n, hn⟩ := driveLoop_slots si (driveTarget c) maxDriveSteps
      (driveFuse { c with inDrive := true })
    rw [hn]
    exact hfuse.trans (slots_kept si n _)

theorem tsshaperDrain_kept (si : SiCallback μ) (fuel : Nat) (c : Core μ) :
    CoreKept c (tsshaperDrain si fuel c) := by
  unfold tsshaperDrain
  split
  · exact .refl c
  · obtain ⟨n, hn⟩ := drainLoop_slots si c.clock.vStc fuel { c with inDrain := true }
    rw [hn]
    exact slots_kept si n { c with inDrain := true }

variable {K : Int} {u w : Timeline}

theorem Wraps.kept (h : Wraps K c u w) (hkept : CoreKept c d) : Wraps K d u w := by
  refine ⟨h.offset, h.first, fun i hi => ?_⟩
  rw [hkept.1] at hi
  rcases h.last i hi with hnone | ⟨hu, hw, hlast⟩
  · exact .inl hnone
  · exact .inr ⟨hu, hw, hlast.imp_left (hkept.2 i)⟩

theorem InStep.core_step {u w : Tsshaper μ} (h : InStep u w) {f : Core μ → Core μ}
    (hf : ∀ c, CoreKept c (f c)) :
    InStep { u with core := f u.core } { w with core := f w.core } := by
  obtain ⟨hcore, K, hwraps⟩ := h
  refine ⟨congrArg f hcore, K, hwraps.kept (hf _)⟩

/-! ## The input path -/

theorem voterPid_resyncKept (physicalStc : Int) (master : Bool) (p : PidState) (delta : Int) :
    ResyncKept p (voterPid physicalStc master p delta).1 := by
  intro h
  obtain ⟨average, state, streak, jump, start, offset, heq⟩ :=
    voterPid_fields physicalStc master p delta
  rw [heq]
  exact h

variable {du dw : Int}

theorem Wraps.setLastDts (h : Wraps K c u w) (hlayout : d.layout = c.layout)
    (hkept : ∀ k, k ≠ i → ResyncKept (c.pids k) (d.pids k)) (hu : du ≠ noptsValue)
    (hw : dw ≠ noptsValue) (hd : du = dw + K * timelineModulo) :
    Wraps K d (u.setLastDts i du) (w.setLastDts i dw) := by
  refine ⟨h.offset, h.first, fun k hk => ?_⟩
  rw [hlayout] at hk
  unfold Timeline.setLastDts
  dsimp only
  by_cases hki : k = i
  · rw [if_pos hki, if_pos hki]
    exact .inr ⟨hu, hw, .inr hd⟩
  · rw [if_neg hki, if_neg hki]
    rcases h.last k hk with hnone | ⟨hu', hw', hlast⟩
    · exact .inl hnone
    · exact .inr ⟨hu', hw', hlast.imp_left (hkept k hki)⟩

theorem mapPids_resync {n k : Nat} (pids : Nat → PidState) {f : PidState → PidState} (hk : k < n)
    (hf : ∀ p, (f p).needResync = true) : (mapPids n pids f k).needResync = true := by
  unfold mapPids
  rw [if_pos hk]
  exact hf _

theorem updPid_kept (c : Core μ) (i : Nat) {f : PidState → PidState}
    (hf : ResyncKept (c.pids i) (f (c.pids i))) : CoreKept c { c with pids := updPid c.pids i f } :=
  ⟨rfl, updPid_across resyncKept_stable.chain c.pids i f hf⟩

/-- **The voter** sees the DTS through the step from the last one, which both runs share. -/
theorem tssVoterProcess_inStep (h : Wraps K c u w) (hu : du ≠ noptsValue) (hw : dw ≠ noptsValue)
    (hd : du = dw + K * timelineModulo)
    (hlast : u.lastDtsRaw i = w.lastDtsRaw i + K * timelineModulo) :
    ∃ d u' w' translated, tssVoterProcess ⟨u, c⟩ i du = (⟨u', d⟩, translated) ∧
      tssVoterProcess ⟨w, c⟩ i dw = (⟨w', d⟩, translated) ∧ Wraps K d u' w' := by
  have hdelta : du - u.lastDtsRaw i = dw - w.lastDtsRaw i := by omega
  unfold tssVoterProcess
  dsimp only
  rw [hdelta]
  have hvoted := voterPid_resyncKept c.clock.physicalStc (isMaster c i) (c.pids i)
    (unwrapDelta (dw - w.lastDtsRaw i))
  generalize voterPid c.clock.physicalStc (isMaster c i) (c.pids i)
    (unwrapDelta (dw - w.lastDtsRaw i)) = r at hvoted
  have hkept : CoreKept c { c with pids := updPid c.pids i fun _ => r.1 } :=
    updPid_kept c i hvoted
  rcases r with ⟨p, verdict⟩
  cases verdict with
  | keep => exact ⟨_, _, _, _, rfl, rfl, h.kept hkept⟩
  | follow =>
    exact ⟨_, _, _, _, rfl, rfl, h.setLastDts hkept.1 (fun k _ => hkept.2 k) hu hw hd⟩
  | translate jump =>
    refine ⟨_, _, _, _, rfl, rfl, ?_⟩
    have h' := h.kept hkept
    refine ⟨?_, h'.first, fun k hk => ?_⟩
    · show u.dtsOffset + jump = w.dtsOffset + jump + K * timelineModulo
      have := h.offset
      omega
    · rcases h'.last k hk with hnone | ⟨hu', hw', -⟩
      · exact .inl hnone
      · refine .inr ⟨hu', hw', .inl ?_⟩
        -- the translation asks every PID to resync
        exact mapPids_resync _ hk fun _ => rfl

theorem arrive_inStep (i : Nat) (h : Wraps K c u w) (hu : du ≠ noptsValue) (hw : dw ≠ noptsValue)
    (hd : du = dw + K * timelineModulo) : InStep (arrive ⟨u, c⟩ i du) (arrive ⟨w, c⟩ i dw) := by
  have hrel : du - u.dtsOffset = dw - w.dtsOffset := by
    have := h.offset
    omega
  have hkept : CoreKept c (arriveCore c i (dw - w.dtsOffset)) :=
    ⟨rfl, updPid_across resyncKept_stable.chain c.pids i _ fun h => h⟩
  unfold arrive InStep
  dsimp only
  rw [hrel]
  refine ⟨rfl, K, ?_⟩
  split
  · exact h.setLastDts hkept.1 (fun k _ => hkept.2 k) hu hw hd
  · exact h.kept hkept

theorem acceptDts_inStep (hi : i < c.layout.nbAllPids) (h : Wraps K c u w) (hu : du ≠ noptsValue)
    (hw : dw ≠ noptsValue) (hd : du = dw + K * timelineModulo) :
    InStep (acceptDts ⟨u, c⟩ i du) (acceptDts ⟨w, c⟩ i dw) := by
  have hresync : Wraps K (resync ⟨u, c⟩ i du).core (u.setLastDts i du) (w.setLastDts i dw) := by
    refine h.setLastDts rfl (fun k hk => ?_) hu hw hd
    show ResyncKept (c.pids k) (updPid c.pids i _ k)
    unfold updPid
    rw [if_neg hk]
    exact fun h => h
  unfold acceptDts
  dsimp only
  rcases h.last i hi with ⟨hu', hw'⟩ | ⟨hu', hw', hlast⟩
  · rw [if_pos (.inl hu'), if_pos (.inl hw')]
    exact arrive_inStep i hresync hu hw hd
  · by_cases hneed : (c.pids i).needResync = true
    · rw [if_pos (.inr hneed), if_pos (.inr hneed)]
      exact arrive_inStep i hresync hu hw hd
    · rw [if_neg (not_or.mpr ⟨hu', hneed⟩), if_neg (not_or.mpr ⟨hw', hneed⟩)]
      obtain ⟨d, u', w', translated, hvu, hvw, hwraps⟩ :=
        tssVoterProcess_inStep h hu hw hd (hlast.resolve_left hneed)
      rw [hvu, hvw]
      cases translated with
      | false => exact arrive_inStep i hwraps hu hw hd
      | true => exact ⟨rfl, K, hwraps⟩

theorem anchorAt_layout (s : Tsshaper μ) (dts : Int) :
    (anchorAt s dts).core.layout = s.core.layout := by
  show (if s.core.clock.vStc = noptsValue then anchorClock s.core
    else reanchorCore s.core).layout = _
  split <;> rfl

/-- **A new anchor** puts the timelines as many moduli apart as the DTS values are. -/
theorem anchorAt_wraps (h : Wraps K c u w) (hdts : dts ≠ noptsValue)
    (hreduced : dts % timelineModulo ≠ noptsValue) :
    Wraps (dts / timelineModulo) (anchorAt ⟨u, c⟩ dts).core (anchorAt ⟨u, c⟩ dts).timeline
      (anchorAt ⟨w, c⟩ (dts % timelineModulo)).timeline := by
  refine ⟨?_, .inr ⟨hdts, hreduced, rfl⟩, fun k hk => ?_⟩
  · show dts - anchorLead c =
      dts % timelineModulo - anchorLead c + dts / timelineModulo * timelineModulo
    have := Int.emod_add_ediv_mul dts timelineModulo
    omega
  · rcases h.last k (anchorAt_layout ⟨u, c⟩ dts ▸ hk) with hnone | ⟨hu', hw', -⟩
    · exact .inl hnone
    · exact .inr ⟨hu', hw', .inl (mapPids_resync _ hk fun _ => rfl)⟩

theorem noteFrame_kept (c : Core μ) (i : Nat) (isKey : Bool) :
    ∃ d goesOn, (∀ t : Timeline, noteFrame ⟨t, c⟩ i isKey = (⟨t, d⟩, goesOn)) ∧ CoreKept c d := by
  have hnoted : CoreKept c (noteKey c i isKey) := updPid_kept c i fun h => h
  unfold noteFrame
  dsimp only
  generalize noteKey c i isKey = n at hnoted
  by_cases hwait : (n.pids i).state = .waitIdr ∧ ¬ isKey ∧ (n.pids i).type = .video
  · exact ⟨n, false, fun t => if_pos hwait, hnoted⟩
  · refine ⟨_, true, fun t => if_neg hwait, ?_⟩
    unfold resumeFromWaitIdr
    split
    · exact hnoted.trans ⟨rfl, updPid_across resyncKept_stable.chain n.pids i _ fun _ => rfl⟩
    · exact hnoted

/-! ## Wrap transparency -/

/-- The DTS lies in the 33-bit epoch of the anchor.  There may be no anchor yet; and while the epoch
    is invalid, or the PID waits for an IDR, a DTS sets a new anchor or is ignored. -/
def InEpoch (s : Tsshaper μ) : Call → Prop
  | .enqueueDts pidNum dts _ => ∀ i, tssGetState s.core pidNum = some i →
      dts ≠ noptsValue ∧
        (s.timeline.firstDts = noptsValue ∨ s.core.dtsEpochInvalid = true ∨
          (s.core.pids i).state = .waitIdr ∨
          dts / timelineModulo = s.timeline.firstDts / timelineModulo)
  | _ => True

theorem reduced_ne_nopts (dts : Int) : dts % timelineModulo ≠ noptsValue := by
  have : 0 ≤ dts % timelineModulo := Int.emod_nonneg dts (by decide)
  unfold noptsValue
  omega

theorem anchors_congr (h : Wraps K c u w) (isKey : Bool) :
    anchors ⟨w, c⟩ isKey = anchors ⟨u, c⟩ isKey := by
  have hfirst : w.firstDts = noptsValue ↔ u.firstDts = noptsValue := by
    rcases h.first with ⟨hfu, hfw⟩ | ⟨hfu, hfw, -⟩
    · exact ⟨fun _ => hfu, fun _ => hfw⟩
    · exact ⟨fun h => absurd h hfw, fun h => absurd h hfu⟩
  unfold anchors
  simp only [hfirst]

theorem placeDts_inStep {isKey : Bool} (hi : i < c.layout.nbAllPids) (h : Wraps K c u w)
    (hdts : dts ≠ noptsValue)
    (hepoch : anchors ⟨u, c⟩ isKey = false → c.dtsEpochInvalid = false →
      dts / timelineModulo = u.firstDts / timelineModulo) :
    InStep (placeDts ⟨u, c⟩ i dts isKey) (placeDts ⟨w, c⟩ i (dts % timelineModulo) isKey) := by
  have hreduced := reduced_ne_nopts dts
  have hsplit := (Int.emod_add_ediv_mul dts timelineModulo).symm
  unfold placeDts
  rw [anchors_congr h isKey]
  cases ha : anchors ⟨u, c⟩ isKey with
  | true =>
    rw [if_pos rfl, if_pos rfl]
    have hi' : i < (anchorAt ⟨u, c⟩ dts).core.layout.nbAllPids := by
      rw [anchorAt_layout]
      exact hi
    exact acceptDts_inStep hi' (anchorAt_wraps h hdts hreduced) hdts hreduced hsplit
  | false =>
    rw [if_neg Bool.false_ne_true, if_neg Bool.false_ne_true]
    by_cases hinvalid : c.dtsEpochInvalid = true
    · rw [if_pos hinvalid, if_pos hinvalid]
      exact ⟨rfl, K, h⟩
    · have hK : dts / timelineModulo = K := by
        rcases h.first with ⟨hfu, -⟩ | ⟨-, -, hfK⟩
        · -- without an anchor yet, the call would have anchored
          simp [anchors, hfu] at ha
        · exact (hepoch ha (Bool.eq_false_of_not_eq_true hinvalid)).trans hfK
      rw [if_neg hinvalid, if_neg hinvalid]
      exact acceptDts_inStep hi h hdts hreduced (hK ▸ hsplit)

theorem enqueueDts_inStep {u w : Tsshaper μ} (h : InStep u w) {pidNum : Nat} {isKey : Bool}
    (hepoch : InEpoch u (.enqueueDts pidNum dts isKey)) :
    InStep (tsshaperEnqueueDts u pidNum dts isKey)
      (tsshaperEnqueueDts w pidNum (dts % timelineModulo) isKey) := by
  obtain ⟨hcore, K, hwraps⟩ := h
  rcases u with ⟨u, c⟩
  rcases w with ⟨w, c'⟩
  obtain rfl : c = c' := hcore
  unfold tsshaperEnqueueDts
  cases hi : tssGetState c pidNum with
  | none => exact ⟨rfl, K, hwraps⟩
  | some i =>
    obtain ⟨hdts, hwhere⟩ := hepoch i hi
    obtain ⟨d, goesOn, hnote, hkept⟩ := noteFrame_kept c i isKey
    simp only [if_neg hdts, if_neg (reduced_ne_nopts dts), hnote]
    cases goesOn with
    | false => exact ⟨rfl, K, hwraps.kept hkept⟩
    | true =>
      have hlt : i < d.layout.nbAllPids := by
        rw [hkept.1]
        unfold tssGetState at hi
        split at hi
        · cases hi
        · exact c.layout.streamIndexToPid_lt _ _ hi
      refine placeDts_inStep hlt (hwraps.kept hkept) hdts fun ha hvalid => ?_
      have hnoted := noteFrame_valid_iff ⟨u, c⟩ i isKey
      rw [hnote] at hnoted
      obtain ⟨hflag, hstate⟩ := hnoted.mp hvalid
      rcases hwhere with hfirst | hinvalid | hwaits | hsame
      · simp [anchors, show u.firstDts = noptsValue from hfirst] at ha
      · exact absurd (hflag.symm.trans hinvalid) Bool.false_ne_true
      · exact absurd hwaits (hstate rfl)
      · exact hsame

theorem callStep_inStep (si : SiCallback μ) {u w : Tsshaper μ} (h : InStep u w) {call : Call}
    (hepoch : InEpoch u call) : InStep (callStep si u call) (callStep si w call.reduced) := by
  cases call with
  | enqueueDts pidNum dts isKey => exact enqueueDts_inStep h hepoch
  | enqueueTs pidNum pkt => exact h.core_step (fun c => tsshaperEnqueueTs_kept c pidNum pkt)
  | drive => exact h.core_step (tsshaperDrive_kept si)
  | drain fuel => exact h.core_step (tsshaperDrain_kept si fuel)
  | resetTimeline =>
    obtain ⟨hcore, K, hwraps⟩ := h
    rcases u with ⟨u, c⟩
    rcases w with ⟨w, c'⟩
    obtain rfl : c = c' := hcore
    exact ⟨rfl, K, hwraps.offset, hwraps.first, fun i hi => .inl ⟨if_pos hi, if_pos hi⟩⟩

/-- **The 33-bit wrap is transparent** as long as every DTS lies in the epoch of the anchor, sets a
    new anchor or is ignored: from any core, the run on the reduced DTS values has the same
    `max_dts_seen`, the same `v_stc` and the same output, after every call. -/
theorem wrap_transparent (si : SiCallback μ) (c : Core μ) (calls : List Call)
    (hepoch : Along InEpoch (callStep si) ⟨Timeline.init, c⟩ calls) :
    ∀ pre, pre <+: calls →
      let u := pre.foldl (callStep si) ⟨Timeline.init, c⟩
      let w := (pre.map Call.reduced).foldl (callStep si) ⟨Timeline.init, c⟩
      w.core.clock.maxDtsSeen = u.core.clock.maxDtsSeen ∧ w.core.clock.vStc = u.core.clock.vStc ∧
        w.core.out = u.core.out := by
  have hinit : InStep (⟨Timeline.init, c⟩ : Tsshaper μ) ⟨Timeline.init, c⟩ := by
    refine ⟨rfl, 0, ?_, .inl ⟨rfl, rfl⟩, fun i _ => .inl ⟨rfl, rfl⟩⟩
    show (0 : Int) = 0 + 0 * timelineModulo
    rw [Int.zero_mul, Int.add_zero]
  have hsim : ∀ u w call, InStep u w → InEpoch u call →
      InStep (callStep si u call) (callStep si w call.reduced) :=
    fun _ _ _ h hc => callStep_inStep si h hc
  intro pre hpre
  have hsame := (along_sim hsim calls _ _ hinit hepoch pre hpre).1
  dsimp only
  rw [hsame]
  exact ⟨rfl, rfl, rfl⟩

def oneStreamRun (calls : List Call) : Tsshaper Unit :=
  calls.foldl (callStep noTables) ⟨Timeline.init, oneStream ⟨10000000, 35, 0, 0, 1⟩ 87⟩

/-- Two frames, 40 ms apart, in the second 33-bit epoch. -/
def sameEpochCalls : List Call :=
  [.enqueueDts 0 (timelineModulo + 1080000) true, .enqueueDts 0 (timelineModulo + 2160000) false,
    .drive]

theorem sameEpochCalls_transparent :
    (oneStreamRun (sameEpochCalls.map Call.reduced)).core.clock.maxDtsSeen =
        (oneStreamRun sameEpochCalls).core.clock.maxDtsSeen ∧
      (oneStreamRun (sameEpochCalls.map Call.reduced)).core.clock.vStc =
        (oneStreamRun sameEpochCalls).core.clock.vStc ∧
      (oneStreamRun (sameEpochCalls.map Call.reduced)).core.out =
        (oneStreamRun sameEpochCalls).core.out := by
  refine wrap_transparent noTables _ sameEpochCalls ?_ _ (List.prefix_refl _)
  refine ⟨fun i _ => ⟨by decide, .inl rfl⟩, fun i _ => ⟨by decide, .inr (.inr (.inr ?_))⟩,
    trivial, trivial⟩
  decide +kernel

/-- Two frames, 40 ms apart, on the two sides of the 33-bit wrap. -/
def wrapCalls : List Call :=
  [.enqueueDts 0 (timelineModulo - 1080000) true, .enqueueDts 0 timelineModulo false]

/-- **The wrap is visible**: the second frame raises `max_dts_seen` by its 40 ms when its DTS is
    unwrapped, and not at all when it is reduced to 0. -/
theorem wrap_visible :
    (oneStreamRun wrapCalls).core.clock.maxDtsSeen = 670 * 27000 ∧
      (oneStreamRun (wrapCalls.map Call.reduced)).core.clock.maxDtsSeen = 630 * 27000 := by
  decide +kernel

end TsAnalyzer.Shaper
