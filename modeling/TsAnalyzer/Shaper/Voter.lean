/-
  The voter of the timeline: a jump of a PID's DTS is believed once three samples agree on it.

  A candidate may lie less than a second from the anchor: then samples that are back at the anchor
  are counted too (`backToNormal_translates`).
-/
import TsAnalyzer.Shaper.Events

namespace TsAnalyzer.Shaper

open Lib List

variable {μ : Type}

/-! ## Distances -/

/-- Modulo the 33 bits of a DTS, `d` is less than 500 ms. -/
def NearMod (d : Int) : Prop := ∃ k : Int, ffabs (d + k * timelineModulo) < 500 * 27000

theorem nearMod_iff (d : Int) :
    d % timelineModulo < 500 * 27000 ∨ timelineModulo - d % timelineModulo < 500 * 27000 ↔
      NearMod d := by
  have hlow : 0 ≤ d % timelineModulo := Int.emod_nonneg d (by decide)
  have hhigh : d % timelineModulo < timelineModulo := Int.emod_lt_of_pos d (by decide)
  have hsplit : timelineModulo * (d / timelineModulo) + d % timelineModulo = d :=
    Int.mul_ediv_add_emod d timelineModulo
  constructor
  · rintro (h | h)
    · refine ⟨-(d / timelineModulo), ?_⟩
      have hrest : d + -(d / timelineModulo) * timelineModulo = d % timelineModulo := by
        rw [Int.neg_mul, Int.mul_comm]
        omega
      rw [hrest]
      unfold ffabs
      split <;> omega
    · refine ⟨-(d / timelineModulo) - 1, ?_⟩
      have hrest : d + (-(d / timelineModulo) - 1) * timelineModulo =
          d % timelineModulo - timelineModulo := by
        rw [Int.sub_mul, Int.neg_mul, Int.mul_comm, Int.one_mul]
        omega
      rw [hrest]
      unfold ffabs
      split <;> omega
  · rintro ⟨k, hk⟩
    unfold ffabs at hk
    unfold timelineModulo at *
    split at hk <;> omega

instance (d : Int) : Decidable (NearMod d) := decidable_of_iff _ (nearMod_iff d)

theorem unwrapDelta_mod (d : Int) : ∃ k : Int, unwrapDelta d = d + k * timelineModulo := by
  unfold unwrapDelta
  split
  · exact ⟨1, by rw [Int.one_mul]⟩
  · split
    · exact ⟨-1, by rw [Int.neg_mul, Int.one_mul]; rfl⟩
    · exact ⟨0, by rw [Int.zero_mul, Int.add_zero]⟩

theorem ffabs_ms {d : Int} (h : 500 ≤ ffabs (d.tdiv 27000)) : 500 * 27000 ≤ ffabs d := by
  have hdiv := Int.tdiv_mul_add_tmod d 27000
  have habove := Int.tmod_lt_of_pos d (show (0 : Int) < 27000 by decide)
  have hbelow := Int.lt_tmod_of_pos d (show (0 : Int) < 27000 by decide)
  unfold ffabs at h ⊢
  by_cases hd : 0 ≤ d
  · have hlow := Int.tmod_nonneg 27000 hd
    rw [if_pos hd]
    split at h <;> omega
  · have hneg : d.tmod 27000 ≤ 0 := by
      have := Int.tmod_nonneg 27000 (show 0 ≤ -d by omega)
      rw [Int.neg_tmod] at this
      omega
    rw [if_neg hd]
    split at h <;> omega

/-! ## One vote -/

/-- What the voter keeps of a PID from sample to sample. -/
structure Ballot where
  state : TssState
  streak : Int
  candidate : Int

def PidState.ballot (p : PidState) : Ballot := ⟨p.state, p.confirmStreak, p.candidateJump⟩

/-- What the voter can do about a step of `delta`: the ballot after it, and its verdict. -/
inductive VoterEffect (master : Bool) (b : Ballot) (delta : Int) : Ballot → Verdict → Prop
  /-- No jump is being confirmed, and none is suspected. -/
  | passed (h : b.state ≠ .confirming) : VoterEffect master b delta b .keep
  /-- A jump is suspected, maybe in place of another. -/
  | suspected (hfar : 500 * 27000 ≤ ffabs delta) :
    VoterEffect master b delta ⟨.confirming, 1, delta⟩ .keep
  /-- A suspicion is dropped: timeout, or back to normal. -/
  | dropped : VoterEffect master b delta ⟨.normal, 0, b.candidate⟩ .keep
  | counted (h : b.state = .confirming) (hnear : ffabs (delta - b.candidate) < 500 * 27000)
    (hstreak : b.streak + 1 < 3) :
    VoterEffect master b delta { b with streak := b.streak + 1 } .keep
  /-- A slave follows its confirmed jump alone. -/
  | absorbed (h : b.state = .confirming) (hstreak : 3 ≤ b.streak + 1) (hslave : master = false) :
    VoterEffect master b delta ⟨.normal, 0, b.candidate⟩ .follow
  | confirmed (h : b.state = .confirming) (hnear : ffabs (delta - b.candidate) < 500 * 27000)
    (hstreak : 3 ≤ b.streak + 1) (hmaster : master = true) :
    VoterEffect master b delta { b with streak := b.streak + 1 } (.translate b.candidate)

theorem estimateStep_ballot (p : PidState) (delta : Int) :
    (estimateStep p delta).ballot = p.ballot := by
  unfold estimateStep
  split <;> rfl

variable {p : PidState} {anchor : Int} {isKey : Bool} {pidNum : Nat} {dts : Int} {i : Nat}
  {votes : List Vote} {s : Tsshaper μ} (physicalStc : Int) (master : Bool)

theorem confirmStep_effect (h : p.state = .confirming) (delta : Int) :
    VoterEffect master p.ballot delta (confirmStep physicalStc master p delta).1.ballot
      (confirmStep physicalStc master p delta).2 := by
  unfold confirmStep
  dsimp only
  split
  · rename_i hnear
    split
    · rename_i hstreak
      split
      · rename_i hslave
        exact .absorbed h hstreak (Bool.eq_false_iff.mpr hslave)
      · rename_i hmaster
        exact .confirmed h hnear hstreak (Decidable.not_not.mp hmaster)
    · rename_i hstreak
      exact .counted h hnear (Int.not_le.mp hstreak)
  · split
    · exact .dropped
    · rename_i hfar
      exact .suspected (ffabs_ms (Int.not_lt.mp hfar))

/-- A jump is suspected from 500 ms on. -/
theorem detectStep_cases (p : PidState) (delta : Int) :
    (500 ≤ ffabs (delta.tdiv 27000) ∧
        detectStep physicalStc p delta = startConfirming physicalStc p delta) ∨
      (ffabs (delta.tdiv 27000) < 500 ∧ (detectStep physicalStc p delta).ballot = p.ballot) := by
  unfold detectStep jumpLevel
  by_cases h500 : ffabs (delta.tdiv 27000) < 500
  · refine .inr ⟨h500, ?_⟩
    by_cases h50 : ffabs (delta.tdiv 27000) < 50
    · rw [if_pos h50]
    · rw [if_neg h50, if_pos h500]
      rfl
  · have h50 : ¬ ffabs (delta.tdiv 27000) < 50 := by omega
    refine .inl ⟨Int.not_lt.mp h500, ?_⟩
    rw [if_neg h50, if_neg h500]
    by_cases h2000 : ffabs (delta.tdiv 27000) < 2000
    · rw [if_pos h2000]
    · rw [if_neg h2000]

theorem detectStep_effect (h : p.state ≠ .confirming) (delta : Int) :
    VoterEffect master p.ballot delta (detectStep physicalStc p delta).ballot .keep := by
  rcases detectStep_cases physicalStc p delta with ⟨hfar, hstart⟩ | ⟨-, hsame⟩
  · rw [hstart]
    exact .suspected (ffabs_ms hfar)
  · rw [hsame]
    exact .passed h

/-- **One vote.** -/
theorem voterPid_effect (p : PidState) (delta : Int) :
    VoterEffect master p.ballot delta (voterPid physicalStc master p delta).1.ballot
      (voterPid physicalStc master p delta).2 := by
  have hballot := estimateStep_ballot p delta
  unfold voterPid
  dsimp only
  generalize estimateStep p delta = q at hballot ⊢
  rw [← hballot]
  split
  · rename_i hconf
    split
    · exact .dropped
    · exact confirmStep_effect physicalStc master hconf delta
  · rename_i hconf
    exact detectStep_effect physicalStc master hconf delta

/-! ## Ballots outside the voter -/

/-- A PID that is still confirming has the ballot it had: the rule of everything but the voter. -/
def BallotKept (p q : PidState) : Prop := q.state = .confirming → q.ballot = p.ballot

theorem ballotKept_trans {q r : PidState} (h : BallotKept p q) (h' : BallotKept q r) :
    BallotKept p r := by
  intro hr
  have hqr := h' hr
  have hq : q.state = .confirming := (congrArg Ballot.state hqr).symm.trans hr
  exact hqr.trans (h hq)

theorem ballotKept_upkeep : UpkeepStable BallotKept where
  refl _ _ := rfl
  trans := ballotKept_trans
  receive _ _ _ := rfl
  wait _ _ _ := rfl
  resume _ h := by cases h
  shed _ _ h := by cases h
  store _ _ _ _ _ _ := rfl
  take _ _ _ _ := rfl
  panic _ _ _ := rfl
  decode _ _ _ _ := rfl
  measure _ _ _ _ _ _ _ _ _ := rfl
  pacing _ _ _ _ := rfl
  deadline _ _ _ _ := rfl
  window _ _ _ _ _ := rfl
  fullness _ _ _ := rfl
  burst _ _ _ := rfl

theorem ballotKept_stable : SlotStable BallotKept :=
  ballotKept_upkeep.slot (fun _ _ _ => rfl) (fun _ _ => rfl) fun _ _ _ => rfl

theorem ballotKept_entry : EntryStable BallotKept where
  note _ _ _ := rfl
  resume _ h := by cases h
  arrive _ _ _ _ := rfl
  resync _ _ := rfl
  fuse _ _ := rfl
  reset _ _ := rfl

theorem ballotKept_jump : JumpStable BallotKept where
  translate _ h := by cases h
  reanchor _ _ := rfl
  restart _ _ := rfl

/-- **Without a DTS** every PID that is still confirming has the ballot it had. -/
theorem ballotKept_event (si : SiCallback μ) (s : Tsshaper μ) {e : Event} (hdts : ¬ e.IsDts) :
    Across BallotKept s.core.pids (eventStep si s e).core.pids := by
  by_cases hslot : e = .slot
  · subst hslot
    exact tssStepInternal_pids ballotKept_stable si s.core
  · exact eventStep_plain ballotKept_stable.after ballotKept_entry si s hslot hdts

/-! ## The votes of a run -/

/-- A sample that the voter was asked about. -/
structure Vote where
  pid : Nat
  dts : Int
  /-- `last_dts_raw` of the PID, which the sample is compared with. -/
  anchor : Int
  /-- `candidate_jump` of the PID, as the voter finds it. -/
  candidate : Int
  /-- The PID is the PCR PID of a program. -/
  master : Bool
  /-- The voter has changed `dts_offset` or `stc`. -/
  moved : Bool
  deriving DecidableEq

def voteAt (s : Tsshaper μ) (i : Nat) (dts : Int) : Vote :=
  let t := (tssVoterProcess s i dts).1
  { pid := i
    dts
    anchor := s.timeline.lastDtsRaw i
    candidate := (s.core.pids i).candidateJump
    master := isMaster s.core i
    moved := t.timeline.dtsOffset ≠ s.timeline.dtsOffset ∨
      t.core.clock.stcBase ≠ s.core.clock.stcBase ∨ t.core.clock.stcRem ≠ s.core.clock.stcRem }

/-- The vote of an event, if it holds one. -/
def voteOf (s : Tsshaper μ) : Event → List Vote
  | .enqueueDts pidNum dts isKey =>
    match tssGetState s.core pidNum with
    | none => []
    | some i =>
      if Asked s pidNum dts isKey i then [voteAt (noteFrame s i isKey).1 i dts] else []
  | _ => []

/-- The shaper, with the votes it holds. -/
def votePush (si : SiCallback μ) (s : Tsshaper μ) (e : Event) : Tsshaper μ × List Vote :=
  (eventStep si s e, voteOf s e)

theorem voteOf_asked (h : Asked s pidNum dts isKey i) :
    voteOf s (.enqueueDts pidNum dts isKey) = [voteAt (noteFrame s i isKey).1 i dts] := by
  have hstate : tssGetState s.core pidNum = some i := h.1.1
  unfold voteOf
  dsimp only
  rw [hstate]
  exact if_pos h

theorem voteOf_none (h : ∀ i, ¬ Asked s pidNum dts isKey i) :
    voteOf s (.enqueueDts pidNum dts isKey) = [] := by
  unfold voteOf
  dsimp only
  split
  · rfl
  · exact if_neg (h _)

theorem voteAt_moved (h : (voteAt s i dts).moved = true) : (tssVoterProcess s i dts).2 = true := by
  by_contra hkeep
  obtain ⟨hoffset, ⟨m, hclock⟩, -⟩ := votes_still (Bool.eq_false_iff.mpr hkeep)
  have hmoved := of_decide_eq_true h
  rw [hoffset, hclock] at hmoved
  rcases hmoved with h | h | h <;> exact h rfl

/-! ## Outliers -/

/-- The sample lies at least 500 ms from the anchor, and less than 500 ms from the candidate. -/
def Outlier (anchor candidate dts : Int) : Prop :=
  ¬ NearMod (dts - anchor) ∧ NearMod (dts - anchor - candidate)

/-- The last `n` votes of the PID are outliers that agree on the candidate. -/
def Agreed (i : Nat) (anchor candidate : Int) (n : Nat) (votes : List Vote) : Prop :=
  LastOf (fun v => v.pid = i) (fun v => Outlier anchor candidate v.dts) n votes

/-- What is claimed of a vote, given those before it: if it moves the timeline, its PID is a master
    and its last three votes, this one included, agree on the jump. -/
def Consensus (votes : List Vote) (v : Vote) : Prop :=
  v.moved = true → v.master = true ∧ Agreed v.pid v.anchor v.candidate 3 (votes ++ [v])

/-- The counted samples stand behind a suspicion, unless a reset has taken its anchor away. -/
def Backed (i : Nat) (anchor : Int) (b : Ballot) (votes : List Vote) : Prop :=
  b.state = .confirming →
    anchor = noptsValue ∨ ∃ n : Nat, n ≤ 2 ∧ b.streak = n ∧ Agreed i anchor b.candidate n votes

/-- A PID has been confirming for more than 500 ms. -/
def TimedOut (physicalStc : Int) (p : PidState) : Prop :=
  physicalStc ≠ noptsValue ∧ p.confirmStartPhysicalStc ≠ noptsValue ∧
    ffabs (physicalStc - p.confirmStartPhysicalStc) > 500 * 27000
deriving Decidable

/-- The voter counts a step: a jump of 500 ms; or, near the candidate of a PID that is confirming,
    any but the third of a slave. -/
def CountsStep (physicalStc : Int) (master : Bool) (p : PidState) (delta : Int) : Prop :=
  if p.state = .confirming then
    ¬ TimedOut physicalStc p ∧
      if ffabs (delta - p.candidateJump) < 500 * 27000 then master = true ∨ p.confirmStreak + 1 < 3
      else 500 ≤ ffabs (delta.tdiv 27000)
  else 500 ≤ ffabs (delta.tdiv 27000)
deriving Decidable

def Counts (s : Tsshaper μ) (i : Nat) (dts : Int) : Prop :=
  CountsStep s.core.clock.physicalStc (isMaster s.core i) (s.core.pids i)
    (unwrapDelta (dts - s.timeline.lastDtsRaw i))
deriving Decidable

/-- A PID is confirming after a step exactly if the step was counted. -/
theorem voterPid_confirming_iff (p : PidState) (delta : Int) :
    (voterPid physicalStc master p delta).1.state = .confirming ↔
      CountsStep physicalStc master p delta := by
  have hestimate : ∃ average, estimateStep p delta = { p with avgFrameDuration := average } := by
    unfold estimateStep
    split <;> exact ⟨_, rfl⟩
  obtain ⟨average, haverage⟩ := hestimate
  unfold voterPid CountsStep
  rw [haverage]
  dsimp only
  split
  · rename_i hconf
    split
    · rename_i hlate
      exact iff_of_false (fun h => by cases h) fun h => h.1 hlate
    · rename_i hintime
      rw [and_iff_right (show ¬ TimedOut physicalStc p from hintime)]
      unfold confirmStep
      dsimp only
      split
      · split
        · rename_i hstreak
          cases master with
          | true => simp [hconf]
          | false => simp [Int.not_lt.mpr hstreak]
        · exact iff_of_true hconf (.inr (by omega))
      · split
        · exact iff_of_false (fun h => by cases h) (by omega)
        · exact iff_of_true rfl (by omega)
  · rename_i hidle
    rcases detectStep_cases physicalStc { p with avgFrameDuration := average } delta with
      ⟨hfar, hstart⟩ | ⟨hnear, hsame⟩
    · rw [hstart]
      exact iff_of_true rfl hfar
    · refine iff_of_false (fun h => hidle ?_) (by omega)
      exact (congrArg Ballot.state hsame).symm.trans h

/-- The DTS is taken without the voter. -/
def Takes (s : Tsshaper μ) (isKey : Bool) (i : Nat) : Prop :=
  anchors s isKey = true ∨ (s.core.dtsEpochInvalid = false ∧ Resyncs s i)
deriving Decidable

/-- The condition on a DTS that arrives: if the voter counts it, it is not near the anchor, and if
    it is taken without the voter, the PID is not confirming. -/
def SoberAt (s : Tsshaper μ) (dts : Int) (isKey : Bool) (i : Nat) : Prop :=
  (¬ Takes s isKey i → Counts s i dts → ¬ NearMod (dts - s.timeline.lastDtsRaw i)) ∧
    (Takes s isKey i → (s.core.pids i).state ≠ .confirming)
deriving Decidable

def Sober (s : Tsshaper μ) : Event → Prop
  | .enqueueDts pidNum dts isKey =>
    ∀ i, Arrives s pidNum dts isKey i → SoberAt (noteFrame s i isKey).1 dts isKey i
  | _ => True

theorem Asked.not_takes (h : Asked s pidNum dts isKey i) :
    ¬ Takes (noteFrame s i isKey).1 isKey i := by
  rintro (hanchors | ⟨-, hr⟩)
  · cases h.2.1.symm.trans hanchors
  · exact h.2.2.2 hr

instance (s : Tsshaper μ) : (e : Event) → Decidable (Sober s e)
  | .enqueueDts pidNum dts isKey => decidable_of_iff _ (arrives_all_iff s pidNum dts isKey _)
  | .enqueueTs .. | .enterDrive | .slot | .leaveDrive | .enterDrain | .resetTimeline => isTrue trivial

theorem Backed.kept {q : PidState} (h : Backed i anchor p.ballot votes) (hkept : BallotKept p q) :
    Backed i anchor q.ballot votes := by
  intro hq
  have hsame := hkept hq
  rw [hsame]
  exact h (by rw [← hsame]; exact hq)

theorem Backed.other {b : Ballot} (h : Backed i anchor b votes) {v : Vote} (hv : v.pid ≠ i) :
    Backed i anchor b (votes ++ [v]) := by
  intro hconf
  refine (h hconf).imp_right ?_
  rintro ⟨n, hn, hstreak, hagreed⟩
  exact ⟨n, hn, hstreak, hagreed.skip (by simpa using hv)⟩

theorem outlier_of_near {candidate : Int} (hfar : ¬ NearMod (dts - anchor))
    (hnear : ffabs (unwrapDelta (dts - anchor) - candidate) < 500 * 27000) :
    Outlier anchor candidate dts := by
  refine ⟨hfar, ?_⟩
  obtain ⟨k, hk⟩ := unwrapDelta_mod (dts - anchor)
  refine ⟨k, ?_⟩
  rw [hk] at hnear
  rw [show dts - anchor - candidate + k * timelineModulo =
    dts - anchor + k * timelineModulo - candidate by ring]
  exact hnear

section Evidence

variable {s : Tsshaper μ} {i : Nat} {dts : Int} {votes : List Vote}
  (h : Backed i (s.timeline.lastDtsRaw i) (s.core.pids i).ballot votes)
  (hset : s.timeline.lastDtsRaw i ≠ noptsValue)
  (hsober : Counts s i dts → ¬ NearMod (dts - s.timeline.lastDtsRaw i))
include h hset hsober

/-- **One vote**, for the evidence: the ballot after it is backed by the votes with it. -/
theorem Backed.vote (hkeep : (tssVoterProcess s i dts).2 = false) :
    Backed i (s.timeline.lastDtsRaw i) (voterPid s.core.clock.physicalStc (isMaster s.core i)
      (s.core.pids i) (unwrapDelta (dts - s.timeline.lastDtsRaw i))).1.ballot
      (votes ++ [voteAt s i dts]) := by
  have heff := voterPid_effect s.core.clock.physicalStc (isMaster s.core i) (s.core.pids i)
    (unwrapDelta (dts - s.timeline.lastDtsRaw i))
  rw [Counts, ← voterPid_confirming_iff] at hsober
  unfold tssVoterProcess at hkeep
  dsimp only at hkeep
  generalize voterPid s.core.clock.physicalStc (isMaster s.core i) (s.core.pids i)
    (unwrapDelta (dts - s.timeline.lastDtsRaw i)) = r at heff hsober hkeep ⊢
  have hstate : r.1.ballot.state = .confirming → ¬ NearMod (dts - s.timeline.lastDtsRaw i) := hsober
  have hpid : decide ((voteAt s i dts).pid = i) = true := decide_eq_true rfl
  generalize r.1.ballot = b, r.2 = v at heff hstate hkeep ⊢
  cases heff with
  | passed hne => exact fun hconf => absurd hconf hne
  | dropped => exact fun hconf => by cases hconf
  | absorbed hconf hstreak hslave => exact fun hconf => by cases hconf
  | confirmed hconf hnear hstreak hmaster => cases hkeep
  | suspected hfar =>
    -- the sample itself names the candidate
    have hself : ffabs (unwrapDelta (dts - s.timeline.lastDtsRaw i) -
        unwrapDelta (dts - s.timeline.lastDtsRaw i)) < 500 * 27000 := by
      rw [Int.sub_self]
      decide
    intro hconf
    exact .inr ⟨1, by decide, rfl,
      (lastOf_zero _ _ votes).snoc hpid (outlier_of_near (hstate hconf) hself)⟩
  | counted hconf hnear hstreak =>
    intro _
    obtain ⟨n, hn, hcount, hagreed⟩ := (h hconf).resolve_left hset
    have hle : n + 1 ≤ 2 := by omega
    exact .inr ⟨n + 1, hle, by rw [hcount]; rfl,
      hagreed.snoc hpid (outlier_of_near (hstate hconf) hnear)⟩

/-- **A translation** is by a master, and three votes agree on it. -/
theorem Backed.translated (htrans : (tssVoterProcess s i dts).2 = true) :
    Consensus votes (voteAt s i dts) := by
  have heff := voterPid_effect s.core.clock.physicalStc (isMaster s.core i) (s.core.pids i)
    (unwrapDelta (dts - s.timeline.lastDtsRaw i))
  have hmaster : (voteAt s i dts).master = isMaster s.core i := rfl
  have hpid : decide ((voteAt s i dts).pid = i) = true := decide_eq_true rfl
  rw [Counts, ← voterPid_confirming_iff] at hsober
  unfold tssVoterProcess at htrans
  dsimp only at htrans
  generalize voterPid s.core.clock.physicalStc (isMaster s.core i) (s.core.pids i)
    (unwrapDelta (dts - s.timeline.lastDtsRaw i)) = r at heff hsober htrans
  have hstate : r.1.ballot.state = .confirming → ¬ NearMod (dts - s.timeline.lastDtsRaw i) := hsober
  generalize r.1.ballot = b, r.2 = v at heff hstate htrans
  cases heff with
  | passed | dropped | absorbed | suspected | counted => cases htrans
  | confirmed hconf hnear hstreak hm =>
    obtain ⟨n, hn, hcount, hagreed⟩ := (h hconf).resolve_left hset
    have htwo : n = 2 := by
      rw [hcount] at hstreak
      omega
    subst htwo
    intro _
    exact ⟨hmaster.trans hm, hagreed.snoc hpid (outlier_of_near (hstate hconf) hnear)⟩

end Evidence

/-! ## Runs -/

/-- Every suspicion of a PID is backed. -/
def AllBacked (s : Tsshaper μ) (votes : List Vote) : Prop :=
  ∀ i, i < s.core.layout.nbAllPids →
    Backed i (s.timeline.lastDtsRaw i) (s.core.pids i).ballot votes

theorem setLastDts_other (t : Timeline) {k : Nat} (h : k ≠ i) (dts : Int) :
    (t.setLastDts i dts).lastDtsRaw k = t.lastDtsRaw k := if_neg h

theorem arrive_lastDts_other (s : Tsshaper μ) {k : Nat} (h : k ≠ i) (dts : Int) :
    (arrive s i dts).timeline.lastDtsRaw k = s.timeline.lastDtsRaw k := by
  dsimp only [arrive]
  split
  · exact setLastDts_other _ h dts
  · rfl

theorem arrive_lastDts_confirming (h : (s.core.pids i).state = .confirming) (dts : Int) :
    (arrive s i dts).timeline.lastDtsRaw i = s.timeline.lastDtsRaw i := by
  dsimp only [arrive]
  rw [if_neg (not_not_intro h)]

theorem AllBacked.taken (h : AllBacked s votes) (hnormal : (s.core.pids i).state ≠ .confirming)
    (dts : Int) : AllBacked (arrive (resync s i dts) i dts) votes := by
  have hchain := ballotKept_stable.chain
  have hkept : Across BallotKept s.core.pids (arrive (resync s i dts) i dts).core.pids :=
    taken_across hchain ballotKept_entry s i dts
  intro k hk
  by_cases hki : k = i
  · subst hki
    intro hconf
    exact absurd ((congrArg Ballot.state (hkept k hconf)).symm.trans hconf) hnormal
  · rw [arrive_lastDts_other _ hki]
    show Backed k ((s.timeline.setLastDts i dts).lastDtsRaw k) _ votes
    rw [setLastDts_other _ hki]
    exact (h k hk).kept (hkept k)

theorem AllBacked.noted (h : AllBacked s votes) (i : Nat) (isKey : Bool) :
    AllBacked (noteFrame s i isKey).1 votes := by
  intro k hk
  rw [noteFrame_layout] at hk
  rw [noteFrame_timeline]
  exact (h k hk).kept (noteFrame_across ballotKept_stable.chain ballotKept_entry s i isKey k)

theorem AllBacked.anchored (h : AllBacked s votes) (dts : Int) :
    AllBacked (anchorAt s dts) votes := by
  have hlayout : (anchorAt s dts).core.layout = s.core.layout := by
    dsimp only [anchorAt, restartPids]
    split <;> rfl
  intro k hk
  rw [hlayout] at hk
  exact (h k hk).kept (anchorAt_across ballotKept_stable.chain ballotKept_jump s dts k)

theorem tssVoterProcess_confirming (hkeep : (tssVoterProcess s i dts).2 = false)
    (hconf : Counts s i dts) : (tssVoterProcess s i dts).1.timeline = s.timeline := by
  have heff := voterPid_effect s.core.clock.physicalStc (isMaster s.core i) (s.core.pids i)
    (unwrapDelta (dts - s.timeline.lastDtsRaw i))
  rw [Counts, ← voterPid_confirming_iff] at hconf
  unfold tssVoterProcess at hkeep ⊢
  dsimp only at hkeep ⊢
  generalize voterPid s.core.clock.physicalStc (isMaster s.core i) (s.core.pids i)
    (unwrapDelta (dts - s.timeline.lastDtsRaw i)) = r at heff hconf hkeep ⊢
  have hstate : r.1.ballot.state = .confirming := hconf
  generalize r.1.ballot = b, r.2 = v at heff hstate hkeep ⊢
  cases heff with
  | absorbed _ _ _ => cases hstate
  | confirmed _ _ _ _ => cases hkeep
  | _ => rfl

theorem tssVoterProcess_lastDts_other {k : Nat} (h : k ≠ i)
    (hkeep : (tssVoterProcess s i dts).2 = false) :
    (tssVoterProcess s i dts).1.timeline.lastDtsRaw k = s.timeline.lastDtsRaw k := by
  rcases (tssVoterProcess_kept hkeep).2 with ht | ht
  · rw [ht]
  · rw [ht, setLastDts_other _ h]

theorem AllBacked.voted (h : AllBacked s votes) (hset : s.timeline.lastDtsRaw i ≠ noptsValue)
    (hsober : Counts s i dts → ¬ NearMod (dts - s.timeline.lastDtsRaw i))
    (hkeep : (tssVoterProcess s i dts).2 = false) :
    AllBacked (arrive (tssVoterProcess s i dts).1 i dts) (votes ++ [voteAt s i dts]) := by
  have hcore := (tssVoterProcess_kept hkeep).1
  have hlayout : (tssVoterProcess s i dts).1.core.layout = s.core.layout := by rw [hcore]
  have harrive := arrive_across ballotKept_stable.chain ballotKept_entry (tssVoterProcess s i dts).1
    i dts
  intro k hk
  have hin : k < s.core.layout.nbAllPids := by
    rw [← hlayout]
    exact hk
  by_cases hki : k = i
  · subst hki
    have hself : (tssVoterProcess s k dts).1.core.pids k =
        (voterPid s.core.clock.physicalStc (isMaster s.core k) (s.core.pids k)
          (unwrapDelta (dts - s.timeline.lastDtsRaw k))).1 := by
      rw [hcore]
      exact if_pos rfl
    intro hconf
    have hballot := harrive k hconf
    have hstill : ((tssVoterProcess s k dts).1.core.pids k).state = .confirming :=
      (congrArg Ballot.state hballot).symm.trans hconf
    have hcounts : Counts s k dts := by
      rw [Counts, ← voterPid_confirming_iff, ← hself]
      exact hstill
    -- a PID that is still confirming keeps its anchor, through the vote and after it
    have hanchor : (arrive (tssVoterProcess s k dts).1 k dts).timeline.lastDtsRaw k =
        s.timeline.lastDtsRaw k := by
      rw [arrive_lastDts_confirming hstill, tssVoterProcess_confirming hkeep hcounts]
    have hbacked := (h k hin).vote hset hsober hkeep
    rw [← hself, ← hballot] at hbacked
    rw [hanchor]
    exact hbacked hconf
  · have hother : (tssVoterProcess s i dts).1.core.pids k = s.core.pids k := by
      rw [hcore]
      exact if_neg hki
    rw [arrive_lastDts_other _ hki, tssVoterProcess_lastDts_other hki hkeep]
    refine Backed.other (Backed.kept ?_ (harrive k)) fun hpid => hki hpid.symm
    rw [hother]
    exact h k hin

theorem allBacked_translated (h : (tssVoterProcess s i dts).2 = true) (votes : List Vote) :
    AllBacked (tssVoterProcess s i dts).1 votes := by
  obtain ⟨p, jump, -, heq⟩ := tssVoterProcess_translated h
  rw [heq]
  intro k hk hconf
  have hnormal : ((translateCore { s.core with pids := updPid s.core.pids i fun _ => p } jump).pids
      k).state = .normal := by
    have hin : k < s.core.layout.nbAllPids := hk
    show (mapPids _ _ _ k).state = .normal
    unfold mapPids
    rw [if_pos hin]
  cases hnormal.symm.trans hconf

theorem AllBacked.plain (si : SiCallback μ) (h : AllBacked s votes) {e : Event} (hdts : ¬ e.IsDts) :
    AllBacked (eventStep si s e) votes := by
  have hkept := ballotKept_event si s hdts
  have hlayout := (eventStep_sameSetUp si s e).layout
  intro k hk
  rw [hlayout] at hk
  cases e with
  | enqueueDts pidNum dts isKey => exact absurd trivial hdts
  | resetTimeline => exact fun _ => .inl (if_pos hk)
  | _ => exact (h k hk).kept (hkept k)

/-- **One event**, for the votes. -/
theorem consensus_step (si : SiCallback μ) (s : Tsshaper μ) (votes : List Vote) (e : Event)
    (h : AllBacked s votes ∧ Throughout Consensus votes) (hsober : Sober s e) :
    AllBacked (votePush si s e).1 (votes ++ (votePush si s e).2) ∧
      Throughout Consensus (votes ++ (votePush si s e).2) := by
  obtain ⟨hbacked, hall⟩ := h
  cases e with
  | enqueueDts pidNum dts isKey =>
    have hnoted := fun i => hbacked.noted i isKey
    have heff := enqueueDts_effect s pidNum dts isKey
    show AllBacked (tsshaperEnqueueDts s pidNum dts isKey)
        (votes ++ voteOf s (.enqueueDts pidNum dts isKey)) ∧
      Throughout Consensus (votes ++ voteOf s (.enqueueDts pidNum dts isKey))
    generalize tsshaperEnqueueDts s pidNum dts isKey = t at heff ⊢
    cases heff with
    | ignored h =>
      rw [voteOf_none fun i hi => h i hi.1, append_nil]
      exact ⟨hbacked, hall⟩
    | noted i h =>
      rw [voteOf_none fun j => (h j).2, append_nil]
      exact ⟨hnoted i, hall⟩
    | anchored i hi h =>
      have hnone : ∀ j, ¬ Asked s pidNum dts isKey j := by
        intro j hj
        obtain rfl := h.1.unique hj.1
        cases h.2.symm.trans hj.2.1
      rw [voteOf_none hnone, append_nil]
      have hnormal := (hsober i h.1).2 (.inl h.2)
      refine ⟨(hnoted i).anchored dts |>.taken ?_ dts, hall⟩
      intro hconf
      have hsame := anchorAt_across ballotKept_stable.chain ballotKept_jump
        (noteFrame s i isKey).1 dts i hconf
      exact hnormal ((congrArg Ballot.state hsame).symm.trans hconf)
    | taken i h hanchors hvalid hr =>
      have hnone : ∀ j, ¬ Asked s pidNum dts isKey j := by
        intro j hj
        obtain rfl := h.unique hj.1
        exact hj.2.2.2 hr
      rw [voteOf_none hnone, append_nil]
      exact ⟨(hnoted i).taken ((hsober i h).2 (.inr ⟨hvalid, hr⟩)) dts, hall⟩
    | voted i h hkeep =>
      have hset : (noteFrame s i isKey).1.timeline.lastDtsRaw i ≠ noptsValue :=
        fun hnone => h.2.2.2 (.inl hnone)
      have hcalm : Consensus votes (voteAt (noteFrame s i isKey).1 i dts) := by
        intro hmoved
        cases hkeep.symm.trans (voteAt_moved hmoved)
      rw [voteOf_asked h]
      exact ⟨(hnoted i).voted hset ((hsober i h.1).1 h.not_takes) hkeep, throughout_snoc hall hcalm⟩
    | translated i h =>
      have hset : (noteFrame s i isKey).1.timeline.lastDtsRaw i ≠ noptsValue :=
        fun hnone => h.1.2.2.2 (.inl hnone)
      have hlt : i < (noteFrame s i isKey).1.core.layout.nbAllPids := by
        rw [noteFrame_layout]
        exact tssGetState_lt h.1.1.1
      rw [voteOf_asked h.1]
      exact ⟨allBacked_translated h.2 _,
        throughout_snoc hall
          ((hnoted i i hlt).translated hset ((hsober i h.1.1).1 h.1.not_takes) h.2)⟩
  | _ =>
    refine ⟨?_, ?_⟩
    · show AllBacked _ (votes ++ [])
      rw [append_nil]
      exact hbacked.plain si id
    · show Throughout Consensus (votes ++ [])
      rw [append_nil]
      exact hall

/-- **The voter never translates on an outlier**, in every run whose events are sober: if a vote
    moves `dts_offset` or `stc`, its PID is the PCR PID of a program, and the last three samples of
    the PID that the voter saw lie, modulo the 33 bits of a DTS, at least 500 ms from the frozen
    anchor and less than 500 ms from the candidate. -/
theorem voter_consensus (si : SiCallback μ) (s : Tsshaper μ) (hs : SetUp s) (events : List Event)
    (hsober : Along Sober (eventStep si) s events) :
    Throughout Consensus (run (votePush si) s events).2 := by
  have hstart : AllBacked s [] := by
    intro i hi hconf
    obtain ⟨pidNum, type, br, hnew⟩ := hs.pids i hi
    rw [hnew] at hconf
    cases hconf
  exact (run_history (R := Sober) (consensus_step si) events s [] ⟨hstart, throughout_nil _⟩
    hsober).2

def twoSecondJump : List Event :=
  [.enqueueDts 0 0 true, .enqueueDts 0 (2040 * 27000) false, .enqueueDts 0 (2080 * 27000) false,
    .enqueueDts 0 (2120 * 27000) false]

theorem twoSecondJump_consensus :
    Throughout Consensus (run (votePush noTables)
      ⟨Timeline.init, oneStream ⟨10000000, 35, 0, 0, 1⟩ 1⟩ twoSecondJump).2 :=
  voter_consensus noTables _ (oneStream_setUp _ _) _ (by decide +kernel)

/-- **Back to normal, and translated.**  One sample is 500 ms ahead of the anchor, the next two are
    80 ms and 120 ms ahead of it, as they should be.  They are within 500 ms of the candidate as
    well, count as its confirmation, and the timeline is translated by 500 ms. -/
theorem backToNormal_translates :
    let votes := (run (votePush noTables) ⟨Timeline.init, oneStream ⟨10000000, 35, 0, 0, 1⟩ 1⟩
      [.enqueueDts 0 0 true, .enqueueDts 0 (500 * 27000) false, .enqueueDts 0 (80 * 27000) false,
        .enqueueDts 0 (120 * 27000) false]).2
    votes = [⟨0, 500 * 27000, 0, 0, true, false⟩, ⟨0, 80 * 27000, 0, 500 * 27000, true, false⟩,
      ⟨0, 120 * 27000, 0, 500 * 27000, true, true⟩] ∧ ¬ Throughout Consensus votes := by
  intro votes
  have hvotes : votes = [⟨0, 500 * 27000, 0, 0, true, false⟩,
      ⟨0, 80 * 27000, 0, 500 * 27000, true, false⟩,
      ⟨0, 120 * 27000, 0, 500 * 27000, true, true⟩] := by decide +kernel
  refine ⟨hvotes, fun hall => ?_⟩
  rw [hvotes] at hall
  obtain ⟨old, new, heq, hlen, hnew⟩ := (hall [_, _] _ [] rfl rfl).2
  -- the last three votes are all of them, and the second is no outlier
  have hsum := congrArg List.length heq
  rw [length_append, hlen] at hsum
  obtain rfl : old = [] := eq_nil_of_length_eq_zero (Nat.add_eq_right.mp hsum.symm)
  have hmem : (⟨0, 80 * 27000, 0, 500 * 27000, true, false⟩ : Vote) ∈ [] ++ new := by
    rw [← heq]
    decide
  exact (hnew _ hmem).1 (by decide)

end TsAnalyzer.Shaper
