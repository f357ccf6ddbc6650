/-
  The exported counter of PCR repetition errors (`live->pcr_repetition_error.count`).

  A snapshot sums up the error counters of the tracks that are INITIALISED at that moment.  A reset
  keeps the counter but leaves its track uninitialised until the next PCR of its PID.
-/
import TsAnalyzer.Clock.Recovery

namespace TsAnalyzer.Clock

open Lib Alarm Essence Packet Pipeline List
open Monitor

variable {δ ρ : Type} [Double δ]

/-! ## Violations -/

/-- The PID of the packet, if its PCR makes the plugin count a violation. -/
def violationHeard (cfg : RecoveryConfig) (P : Parts (Recovery δ × ρ))
    (h : MonitorHandle (Recovery δ × ρ)) : Input → List Nat
  | .packet m pkt n =>
    match heard (withRecovery cfg P) h (m.byte pkt) n with
    | some res =>
      match pcrOnTs (m.byte pkt) res with
      | some pcrTicks =>
        let t := (recoveryOf h).engine.tracks res.pid
        if t.initialized && t.violation (pcrInput cfg pcrTicks n 0 0) then [res.pid] else []
      | none => []
    | none => []
  | _ => []

/-- The analyzer, and the violations it counts. -/
def violationPush (cfg : RecoveryConfig) (P : Parts (Recovery δ × ρ))
    (h : MonitorHandle (Recovery δ × ρ)) (i : Input) : MonitorHandle (Recovery δ × ρ) × List Nat :=
  (inputStep (withRecovery cfg P) h i, violationHeard cfg P h i)

variable (cfg : RecoveryConfig)

theorem onTs_of_none (r : Recovery δ) {res : DecodeResult} {p : Nat → UInt8}
    (hpcr : pcrOnTs p res = none) (now pidPkts totalPkts : Nat) :
    (r.onTs cfg res p now pidPkts totalPkts).engine = r.engine ∧
      (r.onTs cfg res p now pidPkts totalPkts).pcrRepetitionErrorCount =
        r.pcrRepetitionErrorCount := by
  simp only [Recovery.onTs, hpcr]
  exact ⟨rfl, rfl⟩

theorem onTs_of_some (r : Recovery δ) {res : DecodeResult} {p : Nat → UInt8}
    {pcrTicks : Nat} (hpcr : pcrOnTs p res = some pcrTicks) (now pidPkts totalPkts : Nat) :
    (r.onTs cfg res p now pidPkts totalPkts).engine =
        r.engine.update res.pid (pcrInput cfg pcrTicks now pidPkts totalPkts) ∧
      (r.onTs cfg res p now pidPkts totalPkts).pcrRepetitionErrorCount =
        r.pcrRepetitionErrorCount := by
  simp only [Recovery.onTs, hpcr]
  exact ⟨rfl, rfl⟩

theorem update_errors (e : PcrEngine δ) (pid : Nat) (u : PcrInput) :
    ((e.update pid u).tracks pid).priority1Errors =
      if (e.tracks pid).initialized && (e.tracks pid).violation u then
        ((e.tracks pid).priority1Errors + 1) % 2 ^ 32
      else (e.tracks pid).priority1Errors := by
  have heffect := e.update_effect pid u
  generalize (e.update pid u).tracks pid = t' at heffect ⊢
  generalize (e.update pid u).live = s' at heffect
  cases heffect with
  | ignored hinit => rw [hinit]; rfl
  | started hinit => rw [hinit]; rfl
  | reset _ hinit _ _ _ _ _ herrors => rw [herrors, hinit]; rfl
  | arrived _ hinit _ _ _ _ herrors => rw [herrors, hinit]; rfl
  | sampled _ hinit _ _ _ _ _ herrors => rw [herrors, hinit]; rfl

/-! ## The books -/

/-- The counters of the tracks, the PIDs and the exported counter against the violations so far. -/
structure Booked (r : MonitorHandle (Recovery δ × ρ) × List Nat) : Prop where
  errors : ∀ pid, ((recoveryOf r.1).engine.tracks pid).priority1Errors = r.2.count pid % 2 ^ 32
  pids : ∀ pid ∈ r.2, pid < tsPidMax
  exported : (recoveryOf r.1).pcrRepetitionErrorCount ≤ r.2.length

theorem pidOf_lt (p : Nat → UInt8) : pidOf p < tsPidMax := by
  have hhigh : (p 1 &&& 0x1F).toNat < 2 ^ 5 := by
    rw [UInt8.toNat_and]
    exact Nat.and_lt_two_pow _ (by decide)
  have hshift : (p 1 &&& 0x1F).toNat <<< 8 < 2 ^ 13 := by
    rw [Nat.shiftLeft_eq]
    omega
  exact Nat.or_lt_two_pow hshift (lt_of_lt_of_le (p 2).toNat_lt (by decide))

theorem sum_count {pids : List Nat} {pidMax : Nat} (h : ∀ pid ∈ pids, pid < pidMax) :
    ∑ pid ∈ Finset.range pidMax, pids.count pid = pids.length := by
  have hcard := Multiset.sum_count_eq_card (s := Finset.range pidMax) (m := (pids : Multiset Nat))
    fun pid hpid => Finset.mem_range.mpr (h pid (Multiset.mem_coe.mp hpid))
  simpa only [Multiset.coe_count, Multiset.coe_card] using hcard

variable {r : MonitorHandle (Recovery δ × ρ) × List Nat}

omit [Double δ] in
theorem Booked.term_le (h : Booked r) (pid : Nat) :
    (if ((recoveryOf r.1).engine.tracks pid).initialized then
      ((recoveryOf r.1).engine.tracks pid).priority1Errors else 0) ≤ r.2.count pid := by
  split
  · rw [h.errors pid]
    exact Nat.mod_le _ _
  · exact Nat.zero_le _

omit [Double δ] in
theorem Booked.sum_le (h : Booked r) :
    (recoveryOf r.1).engine.repetitionErrors tsPidMax ≤ r.2.length := by
  rw [← sum_count h.pids]
  exact Finset.sum_le_sum fun pid _ => h.term_le pid

omit [Double δ] in
theorem Booked.sum_eq_iff (h : Booked r) :
    (recoveryOf r.1).engine.repetitionErrors tsPidMax = r.2.length ↔
      ∀ pid ∈ r.2, ((recoveryOf r.1).engine.tracks pid).initialized = true ∧
        r.2.count pid < 2 ^ 32 := by
  rw [← sum_count h.pids, PcrEngine.repetitionErrors,
    Finset.sum_eq_sum_iff_of_le fun pid _ => h.term_le pid]
  constructor
  · intro hall pid hpid
    have heq := hall pid (Finset.mem_range.mpr (h.pids pid hpid))
    have hpos : 0 < r.2.count pid := count_pos_iff.mpr hpid
    split at heq
    · rename_i hinit
      refine ⟨hinit, ?_⟩
      rw [h.errors pid] at heq
      omega
    · omega
  · intro hall pid _
    by_cases hpid : pid ∈ r.2
    · obtain ⟨hinit, hlt⟩ := hall pid hpid
      rw [if_pos hinit, h.errors pid, Nat.mod_eq_of_lt hlt]
    · have hzero : r.2.count pid = 0 := count_eq_zero.mpr hpid
      rw [h.errors pid, hzero]
      split <;> rfl

omit [Double δ] in
theorem Booked.sum_eq_zero (h : Booked r)
    (hnone : ∀ pid ∈ r.2, ((recoveryOf r.1).engine.tracks pid).initialized = false) :
    (recoveryOf r.1).engine.repetitionErrors tsPidMax = 0 := by
  apply Finset.sum_eq_zero
  intro pid _
  by_cases hpid : pid ∈ r.2
  · rw [hnone pid hpid]
    rfl
  · rw [h.errors pid, count_eq_zero.mpr hpid]
    split <;> rfl

theorem Booked.updated {h h' : MonitorHandle (Recovery δ × ρ)} {out : List Nat}
    (hb : Booked (h, out)) {pid : Nat} {u : PcrInput} (hpid : pid < tsPidMax)
    (hengine : (recoveryOf h').engine = (recoveryOf h).engine.update pid u)
    (hcount : (recoveryOf h').pcrRepetitionErrorCount = (recoveryOf h).pcrRepetitionErrorCount)
    {new : List Nat} (hnew : new = if ((recoveryOf h).engine.tracks pid).initialized &&
      ((recoveryOf h).engine.tracks pid).violation u then [pid] else []) :
    Booked (h', out ++ new) := by
  have hexported := hb.exported
  refine ⟨fun i => ?_, fun i hi => ?_, ?_⟩
  · have herrors := hb.errors i
    show ((recoveryOf h').engine.tracks i).priority1Errors = (out ++ new).count i % 2 ^ 32
    rw [hengine, count_append]
    by_cases hi : i = pid
    · subst hi
      rw [update_errors, herrors, hnew]
      split
      · rw [count_singleton_self, Nat.mod_add_mod]
      · rfl
    · rw [PcrEngine.update_other _ hi, herrors, hnew]
      split
      · rw [count_singleton, if_neg (by simpa using Ne.symm hi), Nat.add_zero]
      · rfl
  · rcases mem_append.mp hi with hi | hi
    · exact hb.pids i hi
    · rw [hnew] at hi
      split at hi
      · rw [mem_singleton.mp hi]
        exact hpid
      · cases hi
  · show (recoveryOf h').pcrRepetitionErrorCount ≤ (out ++ new).length
    rw [hcount, length_append]
    exact Nat.le_add_right_of_le hexported

theorem Booked.step (P : Parts (Recovery δ × ρ)) (hb : Booked r) (i : Input) :
    Booked (record (violationPush cfg P) r i) := by
  obtain ⟨h, out⟩ := r
  show Booked (inputStep (withRecovery cfg P) h i, out ++ violationHeard cfg P h i)
  cases i with
  | internalDrop dropCount =>
    simp only [violationHeard, append_nil]
    exact ⟨hb.errors, hb.pids, hb.exported⟩
  | commitSnapshot n =>
    simp only [violationHeard, append_nil]
    refine ⟨?_, hb.pids, ?_⟩
    · rw [commit_recovery, commit_engine]
      exact hb.errors
    · rw [commit_recovery, commit_count]
      exact hb.sum_le
  | packet m pkt n =>
    rcases packet_recovery cfg P h m pkt n with
      ⟨hnone, hsame⟩ | ⟨res, pidPkts, totalPkts, hheard, hres, hstep⟩
    · simp only [violationHeard, hnone, append_nil]
      exact ⟨by rw [hsame]; exact hb.errors, hb.pids, by rw [hsame]; exact hb.exported⟩
    · simp only [violationHeard, hheard]
      cases hpcr : pcrOnTs (m.byte pkt) res with
      | none =>
        obtain ⟨hengine, hcount⟩ := onTs_of_none cfg (recoveryOf h) hpcr n
          pidPkts totalPkts
        rw [← hstep] at hengine hcount
        rw [append_nil]
        exact ⟨by rw [hengine]; exact hb.errors, hb.pids, by rw [hcount]; exact hb.exported⟩
      | some pcrTicks =>
        obtain ⟨hengine, hcount⟩ := onTs_of_some cfg (recoveryOf h) hpcr n
          pidPkts totalPkts
        rw [← hstep] at hengine hcount
        have hpid : res.pid < tsPidMax := by
          rw [hres.pid]
          exact pidOf_lt _
        exact hb.updated hpid hengine hcount rfl

theorem fresh_booked (config : AlertConfig) (rest : ρ) :
    Booked (freshHandle config ((Recovery.fresh : Recovery δ), rest), []) :=
  ⟨fun _ => rfl, fun _ hpid => absurd hpid not_mem_nil, Nat.le_refl 0⟩

theorem booked_foldl (P : Parts (Recovery δ × ρ)) (config : AlertConfig)
    (rest : ρ) (is : List Input) :
    Booked (is.foldl (record (violationPush cfg P))
      (freshHandle config (Recovery.fresh, rest), [])) :=
  along_inv (R := fun _ _ => True) (fun _ i hr _ => hr.step cfg P i) is _
    (fresh_booked config rest) (along_true _ _ _) is (prefix_refl is)

/-! ## Snapshots -/

/-- A snapshot exports the number of violations so far, and no less than the snapshot before (whose
    counter still stands). -/
def ExportsAll (cfg : RecoveryConfig) (P : Parts (Recovery δ × ρ))
    (r : MonitorHandle (Recovery δ × ρ) × List Nat) (i : Input) : Prop :=
  ∀ n, i = .commitSnapshot n →
    let counter := (recoveryOf (inputStep (withRecovery cfg P) r.1 i)).pcrRepetitionErrorCount
    (recoveryOf r.1).pcrRepetitionErrorCount ≤ counter ∧ counter = r.2.length

/-- A snapshot finds the track of every PID with a violation initialised, with a counter that has
    not wrapped. -/
def FindsAll (r : MonitorHandle (Recovery δ × ρ) × List Nat) (i : Input) : Prop :=
  ∀ n, i = .commitSnapshot n → ∀ pid ∈ r.2,
    ((recoveryOf r.1).engine.tracks pid).initialized = true ∧ r.2.count pid < 2 ^ 32

/-- **PCR repetition errors**: over every run of packets and snapshots, every snapshot exports the
    violations counted so far exactly if every snapshot finds the tracks they were counted on. -/
theorem repetition_count_iff (cfg : RecoveryConfig) (P : Parts (Recovery δ × ρ))
    (config : AlertConfig) (rest : ρ) (is : List Input) :
    Along (ExportsAll cfg P) (record (violationPush cfg P))
        (freshHandle config (Recovery.fresh, rest), []) is ↔
      Along FindsAll (record (violationPush cfg P))
        (freshHandle config (Recovery.fresh, rest), []) is := by
  refine along_iff (I := Booked) (fun r i hr => hr.step cfg P i) (fun r i hr => ?_) is _ ?_
  · refine forall_congr' fun n => imp_congr_right fun hi => ?_
    rw [hi, commit_recovery, commit_count, ← hr.sum_eq_iff]
    refine ⟨fun h => h.2, fun h => ⟨?_, h⟩⟩
    exact le_of_le_of_eq hr.exported h.symm
  · exact fresh_booked config rest

/-- A packet of PID 0x100 with an adaptation field only, and a PCR this many ms on. -/
def pcrPacket (ms : Nat) : Nat → UInt8 := fun i =>
  let base := 90 * ms
  [0x47, 0x01, 0x00, 0x20, 183, 0x10, UInt8.ofNat (base >>> 25), UInt8.ofNat (base >>> 17),
    UInt8.ofNat (base >>> 9), UInt8.ofNat (base >>> 1), UInt8.ofNat (base % 2 * 128 + 126),
    0].getD i 0xFF

/-- Clock recovery as in LIVE mode, without a forced PCR PID. -/
def liveConfig : RecoveryConfig := ⟨.live, 0, 0⟩

theorem pcrPacket_fields (ms : Nat) : pcrPacket ms 0 = 0x47 ∧ pidOf (pcrPacket ms) = 0x100 ∧
    6 ≤ afLenOf (pcrPacket ms) ∧ pcrPacket ms 5 &&& 0x10 ≠ 0 := by
  have h1 : pcrPacket ms 1 = 0x01 := rfl
  have h2 : pcrPacket ms 2 = 0x00 := rfl
  have h3 : pcrPacket ms 3 = 0x20 := rfl
  have h4 : pcrPacket ms 4 = 183 := rfl
  have h5 : pcrPacket ms 5 = 0x10 := rfl
  refine ⟨rfl, ?_, ?_, ?_⟩
  · rw [pidOf, h1, h2]
    decide
  · rw [afLenOf, h3, h4]
    decide
  · rw [h5]
    decide

theorem pcrPacket_step (h : MonitorHandle (Recovery δ × Unit)) (ms : Nat)
    (hticks : pcrTicks (pcrPacket ms) = 27000 * ms) :
    ∃ u : PcrInput, u.pcrTicks = 27000 * ms ∧
      (recoveryOf (inputStep (withRecovery liveConfig (idleParts δ)) h
        (packetOf (pcrPacket ms) 0))).engine = (recoveryOf h).engine.update 0x100 u ∧
      violationHeard liveConfig (idleParts δ) h (packetOf (pcrPacket ms) 0) =
        if ((recoveryOf h).engine.tracks 0x100).initialized &&
          ((recoveryOf h).engine.tracks 0x100).violation u then [0x100] else [] := by
  obtain ⟨hsync, hpid, haf, hflag⟩ := pcrPacket_fields ms
  have hbytes := packet_bytes (pcrPacket ms)
  rcases packet_recovery liveConfig (idleParts δ) h ⟨pcrPacket ms, fun _ => 0⟩ (.caller 0) 0 with
    ⟨hnone, -⟩ | ⟨res, pidPkts, totalPkts, hsome, hres, hstep⟩
  · rw [hbytes, heard, intake, if_neg (not_not_intro hsync)] at hnone
    cases hnone
  · rw [hbytes] at hsome hres hstep
    have hpcr : pcrOnTs (pcrPacket ms) res = some (27000 * ms) := by
      rw [pcrOnTs, hres.afLen, hticks, if_pos ⟨haf, hflag⟩]
    refine ⟨pcrInput liveConfig (27000 * ms) 0 pidPkts totalPkts, rfl, ?_, ?_⟩
    · rw [packetOf, hstep, (onTs_of_some liveConfig _ hpcr 0 pidPkts totalPkts).1, hres.pid, hpid]
    · simp only [packetOf, violationHeard, hbytes, hsome, hpcr, hres.pid, hpid]
      rfl

/-- The analyzer and the violations it has counted, after a run. -/
def counted (is : List Input) : MonitorHandle (Recovery ℚ × Unit) × List Nat :=
  is.foldl (record (violationPush liveConfig (idleParts ℚ)))
    (freshHandle plainConfig (Recovery.fresh, ()), [])

theorem counted_booked (is : List Input) : Booked (counted is) := booked_foldl _ _ _ _ is

theorem counted_snoc (is : List Input) (i : Input) :
    counted (is ++ [i]) = record (violationPush liveConfig (idleParts ℚ)) (counted is) i := by
  rw [counted, foldl_append, foldl_cons, foldl_nil, counted]

theorem counted_commit (is : List Input) (n : Nat) :
    (recoveryOf (counted (is ++ [.commitSnapshot n])).1).pcrRepetitionErrorCount =
      (recoveryOf (counted is).1).engine.repetitionErrors tsPidMax := by
  rw [counted_snoc, record, violationPush, commit_recovery, commit_count]

/-- The track of PID 0x100 after a run. -/
def trackAfter (is : List Input) : PcrTrack ℚ := (recoveryOf (counted is).1).engine.tracks 0x100

theorem counted_commit_same (is : List Input) (n : Nat) :
    trackAfter (is ++ [.commitSnapshot n]) = trackAfter is ∧
      (counted (is ++ [.commitSnapshot n])).2 = (counted is).2 := by
  constructor
  · rw [trackAfter, counted_snoc, record, violationPush, commit_recovery, commit_engine, trackAfter]
  · rw [counted_snoc, record, violationPush, violationHeard, append_nil]
    intro m pkt n h
    cases h

/-- The run goes on with a PCR this many ms on. -/
def thenPcr (is : List Input) (ms : Nat) : List Input := is ++ [packetOf (pcrPacket ms) 0]

section Pcr

variable (is : List Input) (ms : Nat) (hticks : pcrTicks (pcrPacket ms) = 27000 * ms)
include hticks

theorem thenPcr_update : ∃ u : PcrInput, u.pcrTicks = 27000 * ms ∧
    (recoveryOf (counted (thenPcr is ms)).1).engine =
      (recoveryOf (counted is).1).engine.update 0x100 u ∧
    (counted (thenPcr is ms)).2 = (counted is).2 ++
      if (trackAfter is).initialized && (trackAfter is).violation u then [0x100] else [] := by
  obtain ⟨u, hu, hengine, hviolation⟩ := pcrPacket_step (counted is).1 ms hticks
  refine ⟨u, hu, ?_, ?_⟩
  · rw [thenPcr, counted_snoc]
    exact hengine
  · rw [thenPcr, counted_snoc, record, violationPush, hviolation]
    rfl

variable (hvalid : 27000 * ms ≠ invalidPcr)
include hvalid

theorem thenPcr_kept (hstep : (trackAfter is).initialized = true →
      ticksSince (trackAfter is).lastPcrTicks (27000 * ms) ≤ tsSystemClockHz * 5) :
    (trackAfter (thenPcr is ms)).initialized = true ∧
      (trackAfter (thenPcr is ms)).lastPcrTicks = 27000 * ms := by
  obtain ⟨u, hu, hengine, -⟩ := thenPcr_update is ms hticks
  have hreset : ¬ Resets (recoveryOf (counted is).1).engine 0x100 u := by
    rintro ⟨hinit, -, hjump⟩
    rw [PcrTrack.deltaTicks, hu] at hjump
    exact absurd hjump (Nat.not_lt.mpr (hstep hinit))
  rw [trackAfter, hengine, ← hu]
  exact update_kept _ _ (by rw [PcrInput.Valid, hu]; exact hvalid) hreset

theorem thenPcr_gap (hinit : (trackAfter is).initialized = true)
    (hgap : pcrRepetitionMaxTicks < ticksSince (trackAfter is).lastPcrTicks (27000 * ms)) :
    (counted (thenPcr is ms)).2 = (counted is).2 ++ [0x100] := by
  obtain ⟨u, hu, -, hout⟩ := thenPcr_update is ms hticks
  have hviolation : (trackAfter is).violation u = true := by
    apply PcrTrack.violation_of_gap
    · rw [PcrInput.Valid, hu]
      exact hvalid
    · rw [PcrTrack.deltaTicks, hu]
      exact hgap
  rw [hout, hinit, hviolation]
  rfl

theorem thenPcr_jump (hinit : (trackAfter is).initialized = true)
    (hjump : tsSystemClockHz * 5 < ticksSince (trackAfter is).lastPcrTicks (27000 * ms)) :
    (trackAfter (thenPcr is ms)).initialized = false := by
  obtain ⟨u, hu, hengine, -⟩ := thenPcr_update is ms hticks
  rw [trackAfter, hengine]
  apply update_reset
  refine ⟨hinit, ?_, ?_⟩
  · rw [PcrInput.Valid, hu]
    exact hvalid
  · rw [PcrTrack.deltaTicks, hu]
    exact hjump

end Pcr

def gapRun : List Input := thenPcr (thenPcr [] 0) 100

def snapshotRun : List Input := gapRun ++ [.commitSnapshot 0]

def jumpRun : List Input := thenPcr snapshotRun 10100

theorem gapRun_counted : (counted gapRun).2 = [0x100] ∧ (trackAfter gapRun).initialized = true ∧
    (trackAfter gapRun).lastPcrTicks = 27000 * 100 := by
  obtain ⟨hinit, hlast⟩ := thenPcr_kept [] 0 (by decide) (by decide) fun h => by cases h
  obtain ⟨u, -, -, hout⟩ := thenPcr_update [] 0 (by decide)
  have hkept := thenPcr_kept (thenPcr [] 0) 100 (by decide) (by decide)
    fun _ => by rw [hlast]; decide
  have hgap := thenPcr_gap (thenPcr [] 0) 100 (by decide) (by decide) hinit (by rw [hlast]; decide)
  have hnone : (counted []).2 ++ (if (trackAfter []).initialized && (trackAfter []).violation u
      then [0x100] else []) = [] := rfl
  rw [hout, hnone, nil_append] at hgap
  rw [gapRun]
  exact ⟨hgap, hkept⟩

theorem jumpRun_counted :
    (counted jumpRun).2 = [0x100, 0x100] ∧ (trackAfter jumpRun).initialized = false := by
  obtain ⟨hout, hinit, hlast⟩ := gapRun_counted
  obtain ⟨hsame, hsame'⟩ := counted_commit_same gapRun 0
  rw [hout] at hsame'
  have hdelta : ticksSince (27000 * 100) (27000 * 10100) = 270000000 := by decide
  rw [← hsame] at hinit hlast
  rw [← hlast] at hdelta
  rw [← snapshotRun] at hinit hdelta hsame'
  have hgap := thenPcr_gap snapshotRun 10100 (by decide) (by decide) hinit (by rw [hdelta]; decide)
  have hjump := thenPcr_jump snapshotRun 10100 (by decide) (by decide) hinit
    (by rw [hdelta]; decide)
  have htwo : [0x100] ++ [0x100] = [0x100, 0x100] := rfl
  rw [hsame', htwo] at hgap
  rw [jumpRun]
  exact ⟨hgap, hjump⟩

/-- **A jump takes its errors along**: with a snapshot after the gap and another one after the jump,
    two violations are counted, and the counter falls from 1 to 0. -/
theorem jump_hides_errors :
    (recoveryOf (counted snapshotRun).1).pcrRepetitionErrorCount = 1 ∧
      (counted jumpRun).2 = [0x100, 0x100] ∧
      (recoveryOf (counted (jumpRun ++ [.commitSnapshot 0])).1).pcrRepetitionErrorCount = 0 := by
  obtain ⟨hout, hinit, -⟩ := gapRun_counted
  obtain ⟨hout', hinit'⟩ := jumpRun_counted
  rw [trackAfter] at hinit hinit'
  refine ⟨?_, hout', ?_⟩
  · rw [snapshotRun, counted_commit, (counted_booked gapRun).sum_eq_iff.mpr, hout]
    · rfl
    · rw [hout]
      intro pid hpid
      rw [mem_singleton.mp hpid]
      exact ⟨hinit, by decide⟩
  · rw [counted_commit]
    apply (counted_booked jumpRun).sum_eq_zero
    rw [hout']
    intro pid hpid
    rw [show pid = 0x100 by simpa using hpid]
    exact hinit'

end TsAnalyzer.Clock
