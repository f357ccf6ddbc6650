/-
  The double buffer with one writer and any number of readers, one memory access at a time.

  The writer prepares the INACTIVE buffer field by field and then flips the index; a reader loads
  the index and copies the buffer it names.  Nobody waits: a reader that is overtaken by two flips
  copies from the buffer that is being rewritten.
-/
import Mathlib

namespace TsAnalyzer.Lib.DoubleBuffer

open List Function

variable {F V τ : Type}

/-! ## States and steps -/

/-- The writer: between commits, or with writes pending on its target and then the flip. -/
inductive Writer (F V : Type) where
  | idle
  | writing (target : Bool) (pending : List (F × V))

/-- A reader: between reads, or with fields still to copy and those it has. -/
inductive Reader (F V : Type) where
  | idle
  | copying (source : Bool) (pending : List F) (done : List (F × V))

/-- Memory and parties, with what was committed and what was read so far. -/
structure System (F V τ : Type) where
  bufs : Bool → F → V
  active : Bool
  writer : Writer F V
  readers : τ → Reader F V
  commits : List (F → V)
  reads : List (List (F × V))

/-- Both buffers are as they were created; that counts as the first commit. -/
def System.init (zero : F → V) : System F V τ where
  bufs _ := zero
  active := false
  writer := .idle
  readers _ := .idle
  commits := [zero]
  reads := []

/-- One memory access of one party. -/
inductive Act (F V τ : Type) where
  /-- The writer loads the index, and sets out to write these fields. -/
  | begin (writes : List (F × V))
  /-- The writer writes its next field. -/
  | write
  /-- The writer stores the index: the commit. -/
  | publish
  /-- A reader loads the index, and sets out to copy these fields. -/
  | load (r : τ) (fields : List F)
  /-- A reader copies its next field; with none left, the read is done. -/
  | copy (r : τ)

variable [DecidableEq F] [DecidableEq τ]

/-- One step; an action its party is not ready for changes nothing. -/
def step (s : System F V τ) : Act F V τ → System F V τ
  | .begin writes =>
    match s.writer with
    | .idle => { s with writer := .writing (!s.active) writes }
    | .writing _ _ => s
  | .write =>
    match s.writer with
    | .writing target ((f, v) :: rest) =>
      let buf := update (s.bufs target) f v
      { s with bufs := update s.bufs target buf, writer := .writing target rest }
    | _ => s
  | .publish =>
    match s.writer with
    | .writing target [] =>
      { s with active := target, writer := .idle, commits := s.commits ++ [s.bufs target] }
    | _ => s
  | .load r fields =>
    match s.readers r with
    | .idle => { s with readers := update s.readers r (.copying s.active fields []) }
    | .copying _ _ _ => s
  | .copy r =>
    match s.readers r with
    | .copying source (f :: rest) done =>
      let reader := .copying source rest (done ++ [(f, s.bufs source f)])
      { s with readers := update s.readers r reader }
    | .copying _ [] done =>
      { s with readers := update s.readers r .idle, reads := s.reads ++ [done] }
    | .idle => s

/-! ## Calm steps -/

/-- The write about to happen changes no field that a reader of that buffer has still to copy. -/
def Calm (s : System F V τ) (a : Act F V τ) : Prop :=
  match a, s.writer with
  | .write, .writing target ((f, v) :: _) => s.bufs target f = v ∨
      ∀ r pending done, s.readers r = .copying target pending done → f ∉ pending
  | _, _ => True

def OfCommit (commits : List (F → V)) (read : List (F × V)) : Prop :=
  ∃ c ∈ commits, ∀ p ∈ read, p.2 = c p.1

/-- A reader's copy is of one commit, and so is what it has still to copy. -/
def ReaderOk (bufs : Bool → F → V) (commits : List (F → V)) : Reader F V → Prop
  | .idle => True
  | .copying source pending done =>
    ∃ c ∈ commits, (∀ p ∈ done, p.2 = c p.1) ∧ ∀ f ∈ pending, bufs source f = c f

/-- The invariant. -/
structure Faithful (s : System F V τ) : Prop where
  active : s.bufs s.active ∈ s.commits
  target : ∀ t pending, s.writer = .writing t pending → t = !s.active
  readers : ∀ r, ReaderOk s.bufs s.commits (s.readers r)
  reads : ∀ read ∈ s.reads, OfCommit s.commits read

omit [DecidableEq F] [DecidableEq τ] in
theorem init_faithful (zero : F → V) : Faithful (System.init zero : System F V τ) where
  active := mem_singleton.mpr rfl
  target _ _ h := by cases h
  readers _ := trivial
  reads _ h := absurd h not_mem_nil

omit [DecidableEq F] in
theorem ReaderOk.mono {bufs : Bool → F → V} {commits : List (F → V)} {rd : Reader F V}
    (h : ReaderOk bufs commits rd) (c : F → V) : ReaderOk bufs (commits ++ [c]) rd := by
  cases rd with
  | idle => trivial
  | copying source pending done =>
    obtain ⟨c', hc', h⟩ := h
    exact ⟨c', mem_append_left _ hc', h⟩

theorem ReaderOk.write {bufs : Bool → F → V} {commits : List (F → V)} {rd : Reader F V}
    (h : ReaderOk bufs commits rd) {t : Bool} {f : F} {v : V}
    (hcalm : bufs t f = v ∨ ∀ pending done, rd = .copying t pending done → f ∉ pending) :
    ReaderOk (update bufs t (update (bufs t) f v)) commits rd := by
  cases rd with
  | idle => trivial
  | copying source pending done =>
    obtain ⟨c, hc, hdone, hpending⟩ := h
    refine ⟨c, hc, hdone, fun g hg => ?_⟩
    rw [← hpending g hg]
    by_cases hsrc : source = t
    · subst hsrc
      rw [update_self]
      by_cases hfg : g = f
      · subst hfg
        rw [update_self]
        rcases hcalm with h | h
        · exact h.symm
        · exact absurd hg (h pending done rfl)
      · rw [update_of_ne hfg]
    · rw [update_of_ne hsrc]

/-! ## Every step -/

omit [DecidableEq F] in
theorem readers_update {s : System F V τ} (h : Faithful s) {r : τ} {rd : Reader F V}
    (hrd : ReaderOk s.bufs s.commits rd) (r' : τ) :
    ReaderOk s.bufs s.commits (update s.readers r rd r') := by
  by_cases hr : r' = r
  · rw [hr, update_self]; exact hrd
  · rw [update_of_ne hr]; exact h.readers r'

/-- **A calm step keeps every copy of one commit.** -/
theorem step_faithful {s : System F V τ} {a : Act F V τ} (h : Faithful s) (hcalm : Calm s a) :
    Faithful (step s a) := by
  cases a with
  | begin writes =>
    cases hw : s.writer with
    | idle =>
      simp only [step, hw]
      refine ⟨h.active, fun t p ht => ?_, h.readers, h.reads⟩
      injection ht with ht _
      exact ht.symm
    | writing t p => simp only [step, hw]; exact h
  | write =>
    cases hw : s.writer with
    | idle => simp only [step, hw]; exact h
    | writing t p =>
      cases p with
      | nil => simp only [step, hw]; exact h
      | cons fv rest =>
        obtain ⟨f, v⟩ := fv
        have ht : t = !s.active := h.target t _ hw
        simp only [Calm, hw] at hcalm
        simp only [step, hw]
        refine ⟨?_, fun t' p' ht' => ?_, fun r => (h.readers r).write ?_, h.reads⟩
        · have hne : s.active ≠ t := by rw [ht]; cases s.active <;> decide
          show update s.bufs t _ s.active ∈ s.commits
          rw [update_of_ne hne]
          exact h.active
        · injection ht' with ht' _
          exact ht' ▸ ht
        · exact hcalm.imp_right fun hc pending done => hc r pending done
  | publish =>
    cases hw : s.writer with
    | idle => simp only [step, hw]; exact h
    | writing t p =>
      cases p with
      | nil =>
        simp only [step, hw]
        refine ⟨mem_append_right _ (mem_singleton.mpr rfl), (fun _ _ h' => by cases h'),
          fun r => (h.readers r).mono _, fun read hread => ?_⟩
        obtain ⟨c, hc, hmatch⟩ := h.reads read hread
        exact ⟨c, mem_append_left _ hc, hmatch⟩
      | cons _ _ => simp only [step, hw]; exact h
  | load r fields =>
    cases hr : s.readers r with
    | idle =>
      simp only [step, hr]
      refine ⟨h.active, h.target, readers_update h ?_, h.reads⟩
      -- the buffer it names is the last commit
      exact ⟨s.bufs s.active, h.active, fun _ h' => absurd h' not_mem_nil, fun _ _ => rfl⟩
    | copying _ _ _ => simp only [step, hr]; exact h
  | copy r =>
    cases hr : s.readers r with
    | idle => simp only [step, hr]; exact h
    | copying source pending done =>
      have hok := h.readers r
      rw [hr] at hok
      obtain ⟨c, hc, hdone, hpending⟩ := hok
      cases pending with
      | nil =>
        simp only [step, hr]
        refine ⟨h.active, h.target, readers_update h trivial, fun read hread => ?_⟩
        rcases mem_append.mp hread with hread | hread
        · exact h.reads read hread
        · rw [mem_singleton.mp hread]
          exact ⟨c, hc, hdone⟩
      | cons f rest =>
        simp only [step, hr]
        refine ⟨h.active, h.target, readers_update h ⟨c, hc, fun p hp => ?_, fun g hg => ?_⟩,
          h.reads⟩
        · rcases mem_append.mp hp with hp | hp
          · exact hdone p hp
          · rw [mem_singleton.mp hp]
            exact hpending f (mem_cons_self ..)
        · exact hpending g (mem_cons_of_mem _ hg)

end TsAnalyzer.Lib.DoubleBuffer
