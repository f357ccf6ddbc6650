/-
  The stream model (`src/tsa_stream_model.c`): programs, and a map from PMT PIDs to them.

  1. **Program** — an update finds the program by its number, or appends it, and enters it in the
     map under its PMT PID.  The entry under its OLD PMT PID stays.
  2. **Specification** — the map gives, for a PID, the program updated last among those whose PMT is
     on it (`Exact`); `log` is the order of the updates.
-/
import TsAnalyzer.Lib.Run

namespace TsAnalyzer.Stream

open Lib List

/-- What an update reads and writes of `tsa_program_model_t`; an ES is its PID and type. -/
structure ProgramModel where
  programNumber : Nat
  pmtPid : Nat
  es : List (Nat × UInt8)
  deriving DecidableEq

/-- `tsa_ts_model_t`; `none` is the index -1. -/
structure TsModel where
  programs : List ProgramModel
  pidToProgramIdx : Nat → Option Nat

def tsaStreamModelInit : TsModel := ⟨[], fun _ => none⟩

def tsaStreamModelUpdateProgram (model : TsModel) (progNum pmtPid : Nat) :
    TsModel × Option Nat :=
  let enter (programs : List ProgramModel) (idx : Nat) : TsModel × Option Nat :=
    (⟨programs.modify idx fun p => { p with pmtPid }, fun pid =>
      if pid = pmtPid ∧ pmtPid < 8192 then some idx else model.pidToProgramIdx pid⟩, some idx)
  match model.programs.findIdx? (·.programNumber = progNum) with
  | some idx => enter model.programs idx
  | none =>
    if 64 ≤ model.programs.length then (model, none)
    else enter (model.programs ++ [⟨progNum, 0, []⟩]) model.programs.length

def updateEsList (es : List (Nat × UInt8)) (esPid : Nat) (type : UInt8) : List (Nat × UInt8) :=
  match es.findIdx? (·.1 = esPid) with
  | some i => es.set i (esPid, type)
  | none => if 32 ≤ es.length then es else es ++ [(esPid, type)]

def tsaStreamModelUpdateEs (model : TsModel) (pmtPid esPid : Nat) (type : UInt8) : TsModel :=
  if 8192 ≤ pmtPid then model
  else
    match model.pidToProgramIdx pmtPid with
    | none => model
    | some idx =>
      let update := fun p : ProgramModel => { p with es := updateEsList p.es esPid type }
      { model with programs := model.programs.modify idx update }

/-! ## Specification -/

inductive Update where
  | program (progNum pmtPid : Nat)
  | es (pmtPid esPid : Nat) (type : UInt8)

/-- The model, with the programs in the order they were updated in, the last one first. -/
structure Logged where
  model : TsModel
  log : List Nat

def logStep (s : Logged) : Update → Logged
  | .program progNum pmtPid =>
    let r := tsaStreamModelUpdateProgram s.model progNum pmtPid
    ⟨r.1, r.2.toList ++ s.log⟩
  | .es pmtPid esPid type => { s with model := tsaStreamModelUpdateEs s.model pmtPid esPid type }

/-- Program `i` has its PMT on `pid`. -/
def TsModel.uses (model : TsModel) (pid i : Nat) : Bool :=
  (model.programs[i]?).map (·.pmtPid) = some pid

/-- The map gives the program updated last among those with the PMT on a PID. -/
def Logged.Exact (s : Logged) : Prop :=
  ∀ pid < 8192, s.model.pidToProgramIdx pid = s.log.find? (s.model.uses pid)

/-- The map has the program of this number under no PID but the new one. -/
def KeepsPids (s : Logged) : Update → Prop
  | .program progNum pmtPid =>
    ∀ idx ∈ s.model.programs.findIdx? (·.programNumber = progNum), ∀ pid < 8192,
      pid ≠ pmtPid → s.model.pidToProgramIdx pid ≠ some idx
  | .es .. => True

/-! ## One update -/

/-- Where `idx` alone drops out, the first match is the same unless it was `idx`. -/
theorem find_dropped_iff {p q : Nat → Bool} {idx : Nat} (hidx : q idx = false)
    (hne : ∀ i, i ≠ idx → q i = p i) (log : List Nat) :
    log.find? p = log.find? q ↔ log.find? p ≠ some idx := by
  constructor
  · intro heq h
    have := find?_some (heq.symm.trans h)
    rw [hidx] at this
    cases this
  · induction log with
    | nil => exact fun _ => rfl
    | cons i log ih =>
      intro h
      by_cases hi : i = idx
      · subst hi
        cases hp : p i with
        | true => rw [find?_cons_of_pos hp] at h; exact absurd rfl h
        | false =>
          rw [find?_cons_of_neg (by simp [hp])] at h ⊢
          rw [find?_cons_of_neg (by simp [hidx]), ih h]
      · rw [find?_cons, find?_cons, hne i hi]
        rw [find?_cons] at h
        cases hp : p i with
        | true => rfl
        | false => rw [hp] at h; exact ih h

/-- What an update of a program does: nothing where the table is full, and otherwise the program of
    this number or a new one gets the PID, and the PID that program. -/
theorem updateProgram_cases (model : TsModel) (progNum pmtPid : Nat) :
    let r := tsaStreamModelUpdateProgram model progNum pmtPid
    let found := model.programs.findIdx? (·.programNumber = progNum)
    (r = (model, none) ∧ found = none) ∨ ∃ idx, r.2 = some idx ∧
      (found = some idx ∨ found = none ∧ idx = model.programs.length) ∧
      (∀ pid, r.1.pidToProgramIdx pid =
        if pid = pmtPid ∧ pmtPid < 8192 then some idx else model.pidToProgramIdx pid) ∧
      ∀ pid i, r.1.uses pid i = if i = idx then decide (pid = pmtPid) else model.uses pid i := by
  -- the program that gets the PID, and the others
  have huses : ∀ (programs : List ProgramModel) (idx : Nat), idx < programs.length → ∀ pid i,
      TsModel.uses ⟨programs.modify idx fun p => { p with pmtPid }, fun _ => none⟩ pid i =
        if i = idx then decide (pid = pmtPid)
        else TsModel.uses ⟨programs, fun _ => none⟩ pid i := by
    intro programs idx hlt pid i
    by_cases hi : i = idx
    · simp [TsModel.uses, hi, hlt, eq_comm]
    · simp [TsModel.uses, hi, Ne.symm hi]
  unfold tsaStreamModelUpdateProgram
  dsimp only
  split
  · rename_i idx hfind
    have hlt := (findIdx?_eq_some_iff_getElem.mp hfind).1
    exact .inr ⟨idx, rfl, .inl hfind, fun _ => rfl, huses model.programs idx hlt⟩
  · rename_i hfind
    split
    · exact .inl ⟨rfl, hfind⟩
    · refine .inr ⟨_, rfl, .inr ⟨hfind, rfl⟩, fun _ => rfl, fun pid i =>
        (huses _ _ (by simp) pid i).trans ?_⟩
      by_cases hi : i = model.programs.length
      · rw [if_pos hi, if_pos hi]
      · have hother : (model.programs ++ [⟨progNum, 0, []⟩])[i]? = model.programs[i]? := by grind
        rw [if_neg hi, if_neg hi, TsModel.uses, hother, TsModel.uses]

theorem updateEs_uses (model : TsModel) (pmtPid esPid : Nat) (type : UInt8) :
    (tsaStreamModelUpdateEs model pmtPid esPid type).uses = model.uses ∧
      (tsaStreamModelUpdateEs model pmtPid esPid type).pidToProgramIdx = model.pidToProgramIdx := by
  unfold tsaStreamModelUpdateEs
  split
  · exact ⟨rfl, rfl⟩
  · split
    · exact ⟨rfl, rfl⟩
    · refine ⟨?_, rfl⟩
      funext pid i
      simp only [TsModel.uses, getElem?_modify]
      split <;> cases model.programs[i]? <;> rfl

theorem Logged.Exact.idx_lt {s : Logged} (hs : s.Exact) {pid idx : Nat} (hpid : pid < 8192)
    (h : s.model.pidToProgramIdx pid = some idx) : idx < s.model.programs.length := by
  rw [hs pid hpid] at h
  have huses := find?_some h
  by_contra hge
  rw [TsModel.uses, getElem?_eq_none (Nat.le_of_not_lt hge)] at huses
  simp at huses

/-- **One update** keeps the map exact exactly if it keeps the PIDs. -/
theorem exact_step_iff {s : Logged} (hs : s.Exact) (u : Update) :
    (logStep s u).Exact ↔ KeepsPids s u := by
  cases u with
  | es pmtPid esPid type =>
    obtain ⟨huses, hmap⟩ := updateEs_uses s.model pmtPid esPid type
    refine iff_of_true (fun pid hpid => ?_) trivial
    simp only [logStep, hmap, huses]
    exact hs pid hpid
  | program progNum pmtPid =>
    have hcases := updateProgram_cases s.model progNum pmtPid
    simp only [Logged.Exact, KeepsPids, logStep]
    generalize tsaStreamModelUpdateProgram s.model progNum pmtPid = r at hcases
    rcases hcases with ⟨rfl, hfull⟩ | ⟨idx, hidx, hfound, hmap, huses⟩
    · rw [hfull]
      exact iff_of_true hs fun idx h => by cases h
    · rw [hidx]
      have hone : ∀ pid < 8192, (r.1.pidToProgramIdx pid = (idx :: s.log).find? (r.1.uses pid) ↔
          (pid ≠ pmtPid → s.model.pidToProgramIdx pid ≠ some idx)) := by
        intro pid hpid
        by_cases hnew : pid = pmtPid
        · rw [hmap, if_pos ⟨hnew, hnew ▸ hpid⟩, find?_cons_of_pos (by rw [huses]; simp [hnew])]
          exact iff_of_true rfl fun h => absurd hnew h
        · -- on every other PID the program drops out
          have hout : r.1.uses pid idx = false := by rw [huses, if_pos rfl, decide_eq_false hnew]
          rw [hmap, if_neg fun h => hnew h.1, find?_cons_of_neg (by rw [hout]; simp),
            hs pid hpid]
          rw [find_dropped_iff hout fun i hi => by rw [huses, if_neg hi]]
          exact ⟨fun h _ => h, fun h => h hnew⟩
      rcases hfound with hfound | ⟨hnew, hlast⟩
      · rw [hfound]
        constructor
        · intro h i hi pid hpid
          cases hi
          exact (hone pid hpid).mp (h pid hpid)
        · exact fun h pid hpid => (hone pid hpid).mpr (h idx rfl pid hpid)
      · -- the map holds no index of a program to come
        rw [hnew]
        refine iff_of_true (fun pid hpid => (hone pid hpid).mpr fun _ hmap => ?_) fun i h => ?_
        · exact absurd (hs.idx_lt hpid hmap) (by omega)
        · cases h

/-- **The map is exact all along exactly in the runs** whose updates take no program off a PID under
    which the map has it. -/
theorem lookup_exact_iff (updates : List Update) :
    Along (fun s u => (logStep s u).Exact) logStep ⟨tsaStreamModelInit, []⟩ updates ↔
      Along KeepsPids logStep ⟨tsaStreamModelInit, []⟩ updates :=
  along_iff_while_of_along (I := Logged.Exact) (R := fun _ _ => True) (fun _ _ _ _ h => h)
    (fun _ u hs _ => exact_step_iff hs u) updates _ (fun _ _ => rfl) (along_true _ _ _)

/-- **A program that moves leaves an entry behind**: program 1 goes from PID 256 to PID 512, and a
    stream of PID 256 lands in it all the same. -/
theorem moved_program_found :
    let s := [Update.program 1 256, .program 1 512, .es 256 300 27].foldl logStep
      ⟨tsaStreamModelInit, []⟩
    s.model.pidToProgramIdx 256 = some 0 ∧ s.model.programs = [⟨1, 512, [(300, 27)]⟩] ∧
      ¬ s.Exact := by
  refine ⟨by decide, by decide, fun h => ?_⟩
  exact absurd (h 256 (by decide)) (by decide)

end TsAnalyzer.Stream
