/-
  Deduplication by time WINDOWS, for one key: the first hit is let through and opens a window, hits
  inside it are suppressed and counted, and a window that has suppressed anything ends with a
  SUMMARY of its hits.

  So hits that are let through are a whole window apart (`spaced`), and each suppressed hit is in
  one summary, or held by the open window (`tallied`).
-/
import TsAnalyzer.Lib.Run

namespace TsAnalyzer.Lib.Window

/-- What is seen of one key. -/
inductive Event where
  | hit (time : Nat) (suppressed : Bool)
  | summary (count : Nat)
  deriving DecidableEq

/-- A window: when it opened, and its hits so far. -/
structure Open where
  start : Nat
  count : Nat
  deriving DecidableEq

/-- Hits the window has suppressed and not yet reported. -/
def pending : Option Open → Nat
  | none => 0
  | some w => w.count - 1

/-- One step for a key whose windows have the given width. -/
inductive Turn (width now : Nat) : Option Open → List Event → Option Open → Prop
  | idle (w : Option Open) : Turn width now w [] w
  | counted {w : Open} (hin : now < w.start + width) :
      Turn width now (some w) [.hit now true] (some { w with count := w.count + 1 })
  | opened {w : Option Open} (hfree : ∀ v, w = some v → v.start + width ≤ now ∧ v.count ≤ 1) :
      Turn width now w [.hit now false] (some ⟨now, 1⟩)
  | closed {w : Open} (hover : w.start + width ≤ now) (hmany : 1 < w.count) :
      Turn width now (some w) [.summary w.count] none
  | dropped {w : Open} (hover : w.start + width ≤ now) (hone : w.count ≤ 1) :
      Turn width now (some w) [] none

/-- Suppressed hits since the last summary; `none` once a summary has not counted them. -/
def tallyStep : Option Nat → Event → Option Nat
  | none, _ => none
  | some n, .hit _ suppressed => some (if suppressed then n + 1 else n)
  | some n, .summary count => if count = n + 1 then some 0 else none

def tally (past : List Event) : Option Nat := past.foldl tallyStep (some 0)

/-- A hit that is let through comes a whole window after the one before. -/
def Spaced (width : Nat) (past : List Event) (x : Event) : Prop :=
  ∀ t, x = .hit t false → ∀ u, .hit u false ∈ past → u + width ≤ t

/-- What the open window and the past of a key have to do with each other. -/
structure Books (width now : Nat) (w : Option Open) (past : List Event) : Prop where
  counts : ∀ v, w = some v → 1 ≤ v.count
  recent : ∀ u, .hit u false ∈ past → u + width ≤ now ∨ ∃ v, w = some v ∧ v.start = u
  tallied : tally past = some (pending w)
  spaced : Throughout (Spaced width) past

variable {width now : Nat} {w w' : Option Open} {past new : List Event}

theorem Books.start (width now : Nat) : Books width now none [] where
  counts := fun _ h => (by cases h)
  recent := fun _ h => absurd h List.not_mem_nil
  tallied := rfl
  spaced := throughout_nil _

theorem Books.later (h : Books width now w past) {now' : Nat} (hle : now ≤ now') :
    Books width now' w past where
  counts := h.counts
  recent := fun u hu => (h.recent u hu).imp (fun hover => hover.trans hle) id
  tallied := h.tallied
  spaced := h.spaced

/-- **Each turn keeps the books.** -/
theorem Books.turn (h : Books width now w past) (hturn : Turn width now w new w') :
    Books width now w' (past ++ new) := by
  have htally : tally (past ++ new) = new.foldl tallyStep (some (pending w)) := by
    rw [← h.tallied]
    exact List.foldl_append
  cases hturn with
  | idle =>
    rw [List.append_nil]
    exact h
  | @counted v hin =>
    have hpos := h.counts v rfl
    refine ⟨?_, ?_, ?_, ?_⟩
    · intro v' hv'
      cases hv'
      exact Nat.le_add_left 1 _
    · intro u hu
      rcases List.mem_append.mp hu with hu | hu
      · refine (h.recent u hu).imp id ?_
        rintro ⟨v', hv', hstart⟩
        cases hv'
        exact ⟨_, rfl, hstart⟩
      · cases List.mem_singleton.mp hu
    · rw [htally]
      show some (v.count - 1 + 1) = some (v.count + 1 - 1)
      congr 1
      omega
    · refine throughout_snoc h.spaced fun t ht => ?_
      cases ht
  | opened hfree =>
    -- Every hit let through before is a whole window ago, also the one that opened this slot.
    have hpast : ∀ u, .hit u false ∈ past → u + width ≤ now := by
      intro u hu
      rcases h.recent u hu with hover | ⟨v, hv, rfl⟩
      · exact hover
      · exact (hfree v hv).1
    refine ⟨?_, ?_, ?_, ?_⟩
    · intro v hv
      cases hv
      exact Nat.le_refl 1
    · intro u hu
      rcases List.mem_append.mp hu with hu | hu
      · exact .inl (hpast u hu)
      · cases List.mem_singleton.mp hu
        exact .inr ⟨_, rfl, rfl⟩
    · have hnone : pending w = 0 := by
        cases w with
        | none => rfl
        | some v =>
          have hone := (hfree v rfl).2
          show v.count - 1 = 0
          omega
      rw [htally, hnone]
      rfl
    · refine throughout_snoc h.spaced fun t ht u hu => ?_
      cases ht
      exact hpast u hu
  | @closed v hover hmany =>
    refine ⟨fun _ hv => (by cases hv), ?_, ?_, ?_⟩
    · intro u hu
      rcases List.mem_append.mp hu with hu | hu
      · rcases h.recent u hu with hover' | ⟨v', hv', rfl⟩
        · exact .inl hover'
        · cases hv'
          exact .inl hover
      · cases List.mem_singleton.mp hu
    · rw [htally]
      show (if v.count = v.count - 1 + 1 then some 0 else none) = some 0
      exact if_pos (by omega)
    · refine throughout_snoc h.spaced fun t ht => ?_
      cases ht
  | @dropped v hover hone =>
    refine ⟨fun _ hv => (by cases hv), ?_, ?_, ?_⟩
    · intro u hu
      rw [List.append_nil] at hu
      rcases h.recent u hu with hover' | ⟨v', hv', rfl⟩
      · exact .inl hover'
      · cases hv'
        exact .inl hover
    · rw [htally]
      show some (v.count - 1) = some 0
      congr 1
      omega
    · rw [List.append_nil]
      exact h.spaced

end TsAnalyzer.Lib.Window
