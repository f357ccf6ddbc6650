/-
  Elections: a champion is carried along a list, and each candidate that is ready may take its
  place.  The heavier candidate wins; at equal weight the champion stays, unless the candidate is
  `hot`.  Some candidates YIELD: as a champion they give way to every candidate that does not.
-/
import Mathlib

namespace TsAnalyzer.Lib

open List

variable {α : Type}

structure Election (α : Type) where
  ready : α → Bool
  weight : α → Int
  yields : α → Bool
  hot : α → Bool

namespace Election

variable (e : Election α)

/-- The candidate `a` against the champion `b`. -/
def Beats (a b : α) : Prop :=
  (e.yields b = true ∧ e.yields a = false) ∨ e.weight b < e.weight a ∨
    (e.weight a = e.weight b ∧ e.hot a = true)
deriving Decidable

def challenge (best : Option α) (a : α) : Option α :=
  if e.ready a then
    match best with
    | none => some a
    | some b => if e.Beats a b then some a else some b
  else best

def elected (l : List α) : Option α := l.foldl e.challenge none

/-- A yielding candidate takes over, and the place is not taken from its kind again. -/
def Overtakes (l : List α) : Prop :=
  ∃ pre a post, l = pre ++ a :: post ∧ (e.ready a = true ∧ e.yields a = true ∧ e.hot a = true) ∧
    (∀ x ∈ pre, e.ready x = true → e.weight x = 0) ∧
      ∀ x ∈ post, e.ready x = true → e.yields x = true

variable {a : α} {l : List α}

theorem overtakes_iff_at :
    e.Overtakes l ↔ ∃ n ∈ range l.length, ∃ a ∈ l[n]?,
      (e.ready a = true ∧ e.yields a = true ∧ e.hot a = true) ∧
        (∀ x ∈ l.take n, e.ready x = true → e.weight x = 0) ∧
        ∀ x ∈ l.drop (n + 1), e.ready x = true → e.yields x = true := by
  constructor
  · rintro ⟨pre, a, post, rfl, ha, hpre, hpost⟩
    refine ⟨pre.length, ?_, a, ?_, ha, ?_, ?_⟩
    · rw [mem_range, length_append, length_cons]
      omega
    · rw [getElem?_append_right (Nat.le_refl _), Nat.sub_self]
      rfl
    · rw [take_left]
      exact hpre
    · rw [← drop_drop, drop_left]
      exact hpost
  · rintro ⟨n, hn, a, ha, hself, hpre, hpost⟩
    obtain ⟨hlt, heq⟩ := List.getElem?_eq_some_iff.mp ha
    refine ⟨l.take n, a, l.drop (n + 1), ?_, hself, hpre, hpost⟩
    rw [← heq, getElem_cons_drop, take_append_drop]

instance (l : List α) : Decidable (e.Overtakes l) :=
  decidable_of_iff _ e.overtakes_iff_at.symm

theorem elected_snoc (l : List α) (a : α) :
    e.elected (l ++ [a]) = e.challenge (e.elected l) a := foldl_concat ..

theorem overtakes_snoc :
    e.Overtakes (l ++ [a]) ↔
      (e.Overtakes l ∧ (e.ready a = true → e.yields a = true)) ∨
        ((e.ready a = true ∧ e.yields a = true ∧ e.hot a = true) ∧
          ∀ x ∈ l, e.ready x = true → e.weight x = 0) := by
  constructor
  · rintro ⟨pre, x, post, heq, hx, hpre, hpost⟩
    rcases eq_nil_or_concat post with rfl | ⟨post', y, rfl⟩
    · obtain ⟨rfl, hxa⟩ := append_inj' heq rfl
      rw [List.cons.inj hxa |>.1]
      exact .inr ⟨hx, hpre⟩
    · have heq' : l ++ [a] = (pre ++ x :: post') ++ [y] := by
        rw [heq, concat_eq_append, append_assoc, cons_append]
      obtain ⟨rfl, hya⟩ := append_inj' heq' rfl
      rw [List.cons.inj hya |>.1]
      rw [concat_eq_append] at hpost
      refine .inl ⟨⟨pre, x, post', rfl, hx, hpre, fun z hz => hpost z ?_⟩, hpost y ?_⟩
      · exact mem_append_left _ hz
      · exact mem_append_right _ (mem_singleton.mpr rfl)
  · rintro (⟨⟨pre, x, post, rfl, hx, hpre, hpost⟩, ha⟩ | ⟨ha, hl⟩)
    · refine ⟨pre, x, post ++ [a], by rw [append_assoc, cons_append], hx, hpre, ?_⟩
      intro z hz
      rcases mem_append.mp hz with hz | hz
      · exact hpost z hz
      · rw [mem_singleton.mp hz]
        exact ha
    · refine ⟨l, a, [], rfl, ha, hl, ?_⟩
      intro x hx
      exact absurd hx not_mem_nil

/-- Weights are not negative, and a yielding candidate has none. -/
structure Light (l : List α) : Prop where
  nonneg : ∀ a ∈ l, e.ready a = true → 0 ≤ e.weight a
  yields : ∀ a ∈ l, e.ready a = true → e.yields a = true → e.weight a = 0

theorem Light.init {e : Election α} (h : e.Light (l ++ [a])) : e.Light l :=
  ⟨fun x hx => h.nonneg x (mem_append_left _ hx),
    fun x hx => h.yields x (mem_append_left _ hx)⟩

variable {e}

/-- **The champion** is ready, and no ready candidate is heavier. -/
theorem elected_spec (h : e.Light l) :
    (e.elected l = none ∧ ∀ a ∈ l, e.ready a = false) ∨
      ∃ b, e.elected l = some b ∧ b ∈ l ∧ e.ready b = true ∧
        ∀ a ∈ l, e.ready a = true → e.weight a ≤ e.weight b := by
  induction l using reverseRecOn with
  | nil => exact .inl ⟨rfl, fun a ha => absurd ha not_mem_nil⟩
  | append_singleton l a ih =>
    have hmem : a ∈ l ++ [a] := mem_append_right _ (mem_singleton.mpr rfl)
    -- whoever is in the longer list is in the shorter one or is the new candidate
    have hall : ∀ {P : α → Prop}, (∀ x ∈ l, P x) → P a → ∀ x ∈ l ++ [a], P x := by
      intro P hl ha x hx
      rcases mem_append.mp hx with hx | hx
      · exact hl x hx
      · rw [mem_singleton.mp hx]
        exact ha
    rw [elected_snoc]
    unfold challenge
    by_cases hready : e.ready a = true
    · rw [if_pos hready]
      rcases ih h.init with ⟨hnone, hl⟩ | ⟨b, hb, hbl, hbready, hmax⟩
      · rw [hnone]
        refine .inr ⟨a, rfl, hmem, hready, hall (fun x hx hx' => ?_) fun _ => Int.le_refl _⟩
        cases (hl x hx).symm.trans hx'
      · rw [hb]
        dsimp only
        split
        · rename_i hbeats
          have hle : e.weight b ≤ e.weight a := by
            rcases hbeats with ⟨hyields, -⟩ | hlt | ⟨heq, -⟩
            · rw [h.yields b (mem_append_left _ hbl) hbready hyields]
              exact h.nonneg a hmem hready
            · exact Int.le_of_lt hlt
            · exact Int.le_of_eq heq.symm
          exact .inr ⟨a, rfl, hmem, hready,
            hall (fun x hx hx' => Int.le_trans (hmax x hx hx') hle) fun _ => Int.le_refl _⟩
        · rename_i hloses
          refine .inr ⟨b, rfl, mem_append_left _ hbl, hbready, hall hmax fun _ => ?_⟩
          exact Int.not_lt.mp fun hlt => hloses (.inr (.inl hlt))
    · rw [if_neg hready]
      rcases ih h.init with ⟨hnone, hl⟩ | ⟨b, hb, hbl, hbready, hmax⟩
      · exact .inl ⟨hnone, hall hl (Bool.eq_false_iff.mpr hready)⟩
      · exact .inr ⟨b, hb, mem_append_left _ hbl, hbready,
          hall hmax fun hready' => absurd hready' hready⟩

/-! ## Yielding champions -/

/-- The champion, if there is one, yields. -/
def Yielding (e : Election α) (best : Option α) : Prop := ∀ b, best = some b → e.yields b = true

theorem challenge_other {best : Option α} (hready : e.ready a = true) (ha : e.yields a = false) :
    ¬ e.Yielding (e.challenge best a) := by
  intro h
  unfold challenge at h
  rw [if_pos hready] at h
  cases best with
  | none => cases ha.symm.trans (h a rfl)
  | some b =>
    by_cases hbeats : e.Beats a b
    · cases ha.symm.trans (h a (if_pos hbeats))
    · exact hbeats (.inl ⟨h b (if_neg hbeats), ha⟩)

theorem challenge_yielding {best : Option α} (ha : e.yields a = true) (h : e.Yielding best) :
    e.Yielding (e.challenge best a) := by
  intro x hx
  unfold challenge at hx
  split at hx
  · cases best with
    | none =>
      rw [← Option.some.inj hx]
      exact ha
    | some b =>
      dsimp only at hx
      split at hx
      · rw [← Option.some.inj hx]
        exact ha
      · exact h x hx
  · exact h x hx

/-- A light candidate that yields takes the place of a champion that does not, exactly if that one
    is light too and the candidate is hot. -/
theorem challenge_over {b : α} (hready : e.ready a = true) (ha : e.yields a = true)
    (hb : e.yields b = false) (hzero : e.weight a = 0) (hpos : 0 ≤ e.weight b) :
    e.Yielding (e.challenge (some b) a) ↔ e.weight b = 0 ∧ e.hot a = true := by
  unfold challenge
  rw [if_pos hready]
  dsimp only
  constructor
  · intro h
    by_cases hbeats : e.Beats a b
    · rcases hbeats with ⟨hby, -⟩ | hlt | ⟨heq, hhot⟩
      · cases hb.symm.trans hby
      · omega
      · exact ⟨by omega, hhot⟩
    · cases hb.symm.trans (h b (if_neg hbeats))
  · rintro ⟨hbzero, hhot⟩ x hx
    rw [if_pos (.inr (.inr ⟨by omega, hhot⟩))] at hx
    rw [← Option.some.inj hx]
    exact ha

/-- **When nobody but a yielding candidate is elected**: only such candidates are ready, or one of
    them overtakes the others. -/
theorem elected_yielding_iff (h : e.Light l) :
    e.Yielding (e.elected l) ↔
      (∀ a ∈ l, e.ready a = true → e.yields a = true) ∨ e.Overtakes l := by
  induction l using reverseRecOn with
  | nil => exact iff_of_true (fun b hb => by cases hb) (.inl fun a ha => absurd ha not_mem_nil)
  | append_singleton l a ih =>
    have hmem : a ∈ l ++ [a] := mem_append_right _ (mem_singleton.mpr rfl)
    have ih := ih h.init
    rw [elected_snoc, overtakes_snoc, forall_mem_append, forall_mem_singleton]
    by_cases hready : e.ready a = true
    · by_cases hyields : e.yields a = true
      · rcases elected_spec h.init with ⟨hnone, hl⟩ | ⟨b, hb, hbl, hbready, hmax⟩
        · rw [hnone]
          refine iff_of_true (challenge_yielding hyields fun b hb => by cases hb) (.inl ⟨?_, ?_⟩)
          · intro x hx hx'
            cases (hl x hx).symm.trans hx'
          · exact fun _ => hyields
        · by_cases hbyields : e.yields b = true
          · have hyielding : e.Yielding (e.elected l) := by
              intro x hx
              rw [← Option.some.inj (hb.symm.trans hx)]
              exact hbyields
            refine iff_of_true (challenge_yielding hyields hyielding) ?_
            exact (ih.mp hyielding).imp (fun hall => ⟨hall, fun _ => hyields⟩)
              fun hover => .inl ⟨hover, fun _ => hyields⟩
          · -- the champion of the others is the heaviest: if it is light, all of them are
            have hnot : ¬ e.Yielding (e.elected l) := fun hy => hbyields (hy b hb)
            rw [hb, challenge_over hready hyields (Bool.eq_false_iff.mpr hbyields)
              (h.yields a hmem hready hyields) (h.init.nonneg b hbl hbready)]
            constructor
            · rintro ⟨hbzero, hhot⟩
              refine .inr (.inr ⟨⟨hready, hyields, hhot⟩, fun x hx hx' => ?_⟩)
              have hle := hmax x hx hx'
              have hge := h.init.nonneg x hx hx'
              omega
            · rintro (⟨hall, -⟩ | ⟨hover, -⟩ | ⟨⟨-, -, hhot⟩, hl⟩)
              · exact absurd (ih.mpr (.inl hall)) hnot
              · exact absurd (ih.mpr (.inr hover)) hnot
              · exact ⟨hl b hbl hbready, hhot⟩
      · refine iff_of_false (challenge_other hready (Bool.eq_false_iff.mpr hyields)) ?_
        rintro (⟨-, ha⟩ | ⟨-, ha⟩ | ⟨⟨-, ha, -⟩, -⟩)
        · exact hyields (ha hready)
        · exact hyields (ha hready)
        · exact hyields ha
    · have hsame : e.challenge (e.elected l) a = e.elected l := if_neg hready
      rw [hsame, ih]
      constructor
      · exact Or.imp (fun hall => ⟨hall, fun hx => absurd hx hready⟩)
          fun hover => .inl ⟨hover, fun hx => absurd hx hready⟩
      · rintro (⟨hall, -⟩ | ⟨hover, -⟩ | ⟨⟨hx, -⟩, -⟩)
        · exact .inl hall
        · exact .inr hover
        · exact absurd hx hready

end Election

end TsAnalyzer.Lib
