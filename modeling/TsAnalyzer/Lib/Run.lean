/-
  Runs of a fallible transducer: a step reads one input, may FAULT, and otherwise moves to a new
  state and emits a list of outputs.  Everything is over arbitrary types.

  * `runE`, `AlongE` — the run, and a condition on (state, input) before every step of it;
    `runE_ok_iff_along`: a condition that DECIDES one step decides runs;
  * `Along` — the same for a TOTAL step, with its inductions `along_sim`, `along_inv`, `along_iff`;
  * `run` — the run of a total transducer; `run_refines` against an abstract machine, `run_history`
    for what is said of everything emitted so far (`Throughout`, `LastOf`, `Since`),
    `run_throughout_iff` for a verdict on it, `run_emits` for what is emitted sooner or later.
-/
import Mathlib

namespace TsAnalyzer.Lib

open List

variable {ε σ τ α β γ : Type}

/-! ## Fallible runs -/

/-- Run `step` over the inputs, concatenating the outputs; the first fault ends the run. -/
def runE (step : σ → α → Except ε (σ × List β)) : σ → List α → Except ε (σ × List β)
  | s, [] => .ok (s, [])
  | s, a :: as =>
    match step s a with
    | .error e => .error e
    | .ok (t, out) =>
      match runE step t as with
      | .error e => .error e
      | .ok (u, outs) => .ok (u, out ++ outs)

section

variable {step : σ → α → Except ε (σ × List β)}

theorem runE_cons_iff {s u : σ} {a : α} {as : List α} {outs : List β} :
    runE step s (a :: as) = .ok (u, outs) ↔
      ∃ t out rest, step s a = .ok (t, out) ∧ runE step t as = .ok (u, rest) ∧
        out ++ rest = outs := by
  constructor
  · intro h
    rw [runE] at h
    split at h
    · cases h
    · split at h
      · cases h
      · cases h
        exact ⟨_, _, _, ‹_›, ‹_›, rfl⟩
  · rintro ⟨t, out, rest, hs, hr, rfl⟩
    simp only [runE, hs, hr]

theorem runE_append_iff {as bs : List α} {s u : σ} {outs : List β} :
    runE step s (as ++ bs) = .ok (u, outs) ↔
      ∃ t out rest, runE step s as = .ok (t, out) ∧ runE step t bs = .ok (u, rest) ∧
        out ++ rest = outs := by
  induction as generalizing s outs with
  | nil =>
    constructor
    · exact fun h => ⟨s, [], outs, rfl, h, rfl⟩
    · rintro ⟨t, out, rest, hs, hr, rfl⟩
      cases hs
      exact hr
  | cons a as ih =>
    rw [cons_append, runE_cons_iff]
    constructor
    · rintro ⟨t, out, rest, hs, hr, rfl⟩
      obtain ⟨v, mid, last, hv, hl, rfl⟩ := ih.mp hr
      exact ⟨v, out ++ mid, last, runE_cons_iff.mpr ⟨t, out, mid, hs, hv, rfl⟩, hl, append_assoc ..⟩
    · rintro ⟨v, mid, last, hv, hl, rfl⟩
      obtain ⟨t, out, rest, hs, hr, rfl⟩ := runE_cons_iff.mp hv
      exact ⟨t, out, rest ++ last, hs, ih.mpr ⟨v, rest, last, hr, hl, rfl⟩, (append_assoc ..).symm⟩

theorem exists_ok_and {δ : Type} {x : Except ε δ} {P : δ → Prop} [DecidablePred P]
    (h : (x.toOption.any fun r => P r) = true) : ∃ r, x = .ok r ∧ P r := by
  cases x with
  | error e => cases h
  | ok r => exact ⟨r, rfl, of_decide_eq_true h⟩

theorem exists_ok_of_any {x : Except ε (σ × List β)} {P : List β → Prop} [DecidablePred P]
    (h : (x.toOption.any fun r => P r.2) = true) : ∃ s out, x = .ok (s, out) ∧ P out :=
  have ⟨r, hr, hP⟩ := exists_ok_and h
  ⟨r.1, r.2, hr, hP⟩

/-! ## Side conditions along a run -/

/-- `P` holds of the state and the input before every step of the run that is reached. -/
def AlongE (P : σ → α → Prop) (step : σ → α → Except ε (σ × List β)) : σ → List α → Prop
  | _, [] => True
  | s, a :: as => P s a ∧ ∀ t out, step s a = .ok (t, out) → AlongE P step t as

variable {I : σ → Prop}

theorem runE_inv (hinv : ∀ s a t out, I s → step s a = .ok (t, out) → I t) (as : List α) (s : σ)
    (r : σ × List β) (hs : I s) (h : runE step s as = .ok r) : I r.1 := by
  induction as generalizing s r with
  | nil =>
    cases h
    exact hs
  | cons a as ih =>
    obtain ⟨t, out, rest, hstep, hr, -⟩ := runE_cons_iff.mp h
    exact ih t (r.1, rest) (hinv s a t out hs hstep) hr

theorem runE_outputs {P : β → Prop} (hstep : ∀ s a t out, step s a = .ok (t, out) → ∀ b ∈ out, P b)
    (as : List α) (s : σ) (r : σ × List β) (h : runE step s as = .ok r) : ∀ b ∈ r.2, P b := by
  induction as generalizing s r with
  | nil =>
    cases h
    exact fun _ hb => absurd hb not_mem_nil
  | cons a as ih =>
    obtain ⟨t, out, rest, hs, hr, hout⟩ := runE_cons_iff.mp h
    intro b hb
    rw [← hout] at hb
    rcases mem_append.mp hb with hb | hb
    · exact hstep s a t out hs b hb
    · exact ih t (r.1, rest) hr b hb

variable {P : σ → α → Prop}

/-- **Per-step exactness lifts to runs.**  If, from states satisfying the invariant, a step goes
    through exactly when `P` holds, then a run goes through exactly when `P` holds along it. -/
theorem runE_ok_iff_along (hinv : ∀ s a t out, I s → step s a = .ok (t, out) → I t)
    (hexact : ∀ s a, I s → ((∃ r, step s a = .ok r) ↔ P s a)) (as : List α) (s : σ) (hs : I s) :
    (∃ r, runE step s as = .ok r) ↔ AlongE P step s as := by
  induction as generalizing s with
  | nil => exact ⟨fun _ => trivial, fun _ => ⟨_, rfl⟩⟩
  | cons a as ih =>
    constructor
    · rintro ⟨r, hrun⟩
      obtain ⟨t, out, rest, hstep, hr, -⟩ := runE_cons_iff.mp hrun
      refine ⟨(hexact s a hs).mp ⟨_, hstep⟩, fun t' out' hst => ?_⟩
      cases hstep.symm.trans hst
      exact (ih t (hinv s a t out hs hstep)).mp ⟨_, hr⟩
    · rintro ⟨hP, hrest⟩
      obtain ⟨⟨t, out⟩, hstep⟩ := (hexact s a hs).mpr hP
      obtain ⟨q, hr⟩ := (ih t (hinv s a t out hs hstep)).mpr (hrest t out hstep)
      exact ⟨(q.1, out ++ q.2), runE_cons_iff.mpr ⟨t, out, q.2, hstep, hr, rfl⟩⟩

theorem alongE_append_iff {as bs : List α} {s : σ} : AlongE P step s (as ++ bs) ↔
    AlongE P step s as ∧ ∀ t out, runE step s as = .ok (t, out) → AlongE P step t bs := by
  induction as generalizing s with
  | nil =>
    refine ⟨fun h => ⟨trivial, fun t out hrun => ?_⟩, fun h => h.2 s [] rfl⟩
    cases hrun
    exact h
  | cons a as ih =>
    constructor
    · rintro ⟨ha, hrest⟩
      refine ⟨⟨ha, fun t out hst => (ih.mp (hrest t out hst)).1⟩, fun u outs hrun => ?_⟩
      obtain ⟨t, out, rest, hst, hr, -⟩ := runE_cons_iff.mp hrun
      exact (ih.mp (hrest t out hst)).2 u rest hr
    · rintro ⟨⟨ha, hrest⟩, hlast⟩
      refine ⟨ha, fun t out hst => ih.mpr ⟨hrest t out hst, fun u outs hu => ?_⟩⟩
      exact hlast u (out ++ outs) (runE_cons_iff.mpr ⟨t, out, outs, hst, hu, rfl⟩)

end

/-! ## Total steps -/

/-- One run of the steps decides it. -/
def AlongE.decide (P : σ → α → Prop) [∀ s a, Decidable (P s a)]
    (step : σ → α → Except ε (σ × List β)) : ∀ s as, Decidable (AlongE P step s as)
  | _, [] => .isTrue trivial
  | s, a :: as =>
    match hstep : step s a with
    | .error _ => decidable_of_iff (P s a)
      ⟨fun h => ⟨h, fun _ _ hst => by cases hstep.symm.trans hst⟩, And.left⟩
    | .ok r =>
      have := AlongE.decide P step r.1 as
      decidable_of_iff (P s a ∧ AlongE P step r.1 as)
        ⟨fun h => ⟨h.1, fun _ _ hst => by cases hstep.symm.trans hst; exact h.2⟩,
          fun h => ⟨h.1, h.2 r.1 r.2 hstep⟩⟩

instance (P : σ → α → Prop) [∀ s a, Decidable (P s a)] (step : σ → α → Except ε (σ × List β))
    (s : σ) (as : List α) : Decidable (AlongE P step s as) := AlongE.decide P step s as

/-- `P` holds of the state and the input before every step of the run. -/
def Along (P : σ → α → Prop) (step : σ → α → σ) : σ → List α → Prop
  | _, [] => True
  | s, a :: as => P s a ∧ Along P step (step s a) as

instance {P : σ → α → Prop} [∀ s a, Decidable (P s a)] (step : σ → α → σ) :
    (s : σ) → (as : List α) → Decidable (Along P step s as)
  | _, [] => isTrue trivial
  | s, a :: as =>
    have : Decidable (Along P step (step s a) as) := instDecidableAlong step (step s a) as
    inferInstanceAs (Decidable (P s a ∧ Along P step (step s a) as))

variable {I : σ → Prop} {P : σ → α → Prop} {step : σ → α → σ}

theorem along_iff_at {as : List α} {s : σ} :
    Along P step s as ↔ ∀ pre a, pre ++ [a] <+: as → P (pre.foldl step s) a := by
  induction as generalizing s with
  | nil =>
    refine ⟨fun _ pre a hpre => ?_, fun _ => trivial⟩
    exact absurd (prefix_nil.mp hpre) (by simp)
  | cons b as ih =>
    constructor
    · rintro ⟨hb, hrest⟩ pre a hpre
      cases pre with
      | nil =>
        obtain ⟨rfl, -⟩ := cons_prefix_cons.mp hpre
        exact hb
      | cons c pre =>
        obtain ⟨rfl, hpre'⟩ := cons_prefix_cons.mp hpre
        rw [foldl_cons]
        exact ih.mp hrest pre a hpre'
    · intro h
      refine ⟨h [] b (cons_prefix_cons.mpr ⟨rfl, nil_prefix⟩), ih.mpr ?_⟩
      intro pre a hpre
      exact h (b :: pre) a (cons_prefix_cons.mpr ⟨rfl, hpre⟩)

variable {R : σ → α → Prop}

/-- **Lockstep simulation**: a relation that steps meeting `R` keep, between a run and the run of
    another machine on the translated inputs, holds in every pair of states of two such runs. -/
theorem along_sim {g : τ → β → τ} {f : α → β}
    {S : σ → τ → Prop} (hsim : ∀ s t a, S s t → R s a → S (step s a) (g t (f a))) (as : List α)
    (s : σ) (t : τ) (hs : S s t) (h : Along R step s as) :
    ∀ pre, pre <+: as → S (pre.foldl step s) ((pre.map f).foldl g t) := by
  induction as generalizing s t with
  | nil =>
    intro pre hpre
    rw [prefix_nil.mp hpre]
    exact hs
  | cons a as ih =>
    obtain ⟨hR, hrest⟩ := h
    rintro pre hpre
    cases pre with
    | nil => exact hs
    | cons b pre =>
      obtain ⟨rfl, hpre'⟩ := cons_prefix_cons.mp hpre
      exact ih _ _ (hsim s t b hs hR) hrest pre hpre'

/-- An invariant that steps meeting `R` keep holds in every state of a run whose steps all do. -/
theorem along_inv (hinv : ∀ s a, I s → R s a → I (step s a)) (as : List α) (s : σ) (hs : I s)
    (hR : Along R step s as) : ∀ pre, pre <+: as → I (pre.foldl step s) :=
  along_sim (S := fun s (_ : Unit) => I s) (g := fun _ _ => ()) (f := fun a => a)
    (fun s _ a => hinv s a) as s () hs hR

variable {Q : σ → α → Prop}

/-- Two conditions that agree wherever the invariant and `R` hold agree along every run whose steps
    all meet `R`, also when a step keeps the invariant only where the first of them holds. -/
theorem along_iff_while_of_along (hinv : ∀ s a, I s → R s a → P s a → I (step s a))
    (h : ∀ s a, I s → R s a → (P s a ↔ Q s a)) (as : List α) (s : σ) (hs : I s)
    (hx : Along R step s as) : Along P step s as ↔ Along Q step s as := by
  induction as generalizing s with
  | nil => exact Iff.rfl
  | cons a as ih =>
    obtain ⟨hR, hrestR⟩ := hx
    constructor
    · rintro ⟨hP, hrest⟩
      exact ⟨(h s a hs hR).mp hP, (ih _ (hinv s a hs hR hP) hrestR).mp hrest⟩
    · rintro ⟨hQ, hrest⟩
      have hP := (h s a hs hR).mpr hQ
      exact ⟨hP, (ih _ (hinv s a hs hR hP) hrestR).mpr hrest⟩

theorem along_iff_of_along (hinv : ∀ s a, I s → R s a → I (step s a))
    (h : ∀ s a, I s → R s a → (P s a ↔ Q s a)) (as : List α) (s : σ) (hs : I s)
    (hR : Along R step s as) : Along P step s as ↔ Along Q step s as :=
  along_iff_while_of_along (fun s a hs hR _ => hinv s a hs hR) h as s hs hR

theorem along_true (step : σ → α → σ) (as : List α) (s : σ) :
    Along (fun _ _ => True) step s as := by
  induction as generalizing s with
  | nil => trivial
  | cons a as ih => exact ⟨trivial, ih _⟩

/-- What the invariant and `R` give before each step holds along every run whose steps meet `R`. -/
theorem along_of_along (hinv : ∀ s a, I s → R s a → I (step s a)) (h : ∀ s a, I s → R s a → P s a)
    (as : List α) (s : σ) (hs : I s) (hR : Along R step s as) : Along P step s as :=
  (along_iff_of_along hinv (fun s a hs hR => iff_true_intro (h s a hs hR)) as s hs hR).mpr
    (along_true step as s)

theorem along_and {as : List α} {s : σ} (hP : Along P step s as) (hQ : Along Q step s as) :
    Along (fun s a => P s a ∧ Q s a) step s as := by
  induction as generalizing s with
  | nil => trivial
  | cons a as ih => exact ⟨⟨hP.1, hQ.1⟩, ih hP.2 hQ.2⟩

theorem along_append {as bs : List α} {s : σ} :
    Along P step s (as ++ bs) ↔ Along P step s as ∧ Along P step (as.foldl step s) bs := by
  induction as generalizing bs s with
  | nil => exact ⟨fun h => ⟨trivial, h⟩, fun h => h.2⟩
  | cons a as ih => exact ⟨fun h => ⟨⟨h.1, (ih.mp h.2).1⟩, (ih.mp h.2).2⟩,
      fun h => ⟨h.1.1, ih.mpr ⟨h.1.2, h.2⟩⟩⟩

theorem along_of_forall {as : List α} {s : σ} (h : ∀ a ∈ as, ∀ s, P s a) : Along P step s as := by
  induction as generalizing s with
  | nil => trivial
  | cons a as ih => exact ⟨h a mem_cons_self s, ih fun b hb => h b (mem_cons_of_mem _ hb)⟩

theorem along_iff (hinv : ∀ s a, I s → I (step s a)) (h : ∀ s a, I s → (P s a ↔ Q s a))
    (as : List α) (s : σ) (hs : I s) : Along P step s as ↔ Along Q step s as :=
  along_iff_of_along (R := fun _ _ => True) (fun s a hs _ => hinv s a hs)
    (fun s a hs _ => h s a hs) as s hs (along_true step as s)

theorem along_iff_while
    (hinv : ∀ s a, I s → P s a → I (step s a)) (h : ∀ s a, I s → (P s a ↔ Q s a))
    (as : List α) (s : σ) (hs : I s) : Along P step s as ↔ Along Q step s as :=
  along_iff_while_of_along (R := fun _ _ => True) (fun s a hs _ => hinv s a hs)
    (fun s a hs _ => h s a hs) as s hs (along_true step as s)

theorem sum_update_add [DecidableEq α] {M : Type} [AddCommMonoid M] (w : β → M) {is : Finset α}
    {i : α} (hi : i ∈ is) (b : α → β) (v : β) :
    ∑ j ∈ is, w (Function.update b i v j) + w (b i) = ∑ j ∈ is, w (b j) + w v := by
  have hrest : ∑ j ∈ is.erase i, w (Function.update b i v j) = ∑ j ∈ is.erase i, w (b j) :=
    Finset.sum_congr rfl fun j hj => by rw [Function.update_of_ne (Finset.ne_of_mem_erase hj)]
  rw [← Finset.add_sum_erase _ _ hi, ← Finset.add_sum_erase _ (fun j => w (b j)) hi, hrest,
    Function.update_self]
  abel

/-- **A loop that visits each index once**: if the step for `i` changes what is stored at `i`, by
    itself, and nothing at the others, then so does the loop for all of its indices. -/
theorem foldl_visits [DecidableEq α] {f : σ → α → σ} {g : σ → α → β} {v : β → β}
    (hself : ∀ s i, g (f s i) i = v (g s i))
    (hother : ∀ s i j, j ≠ i → g (f s i) j = g s j) {is : List α} (hnodup : is.Nodup) :
    ∀ (s : σ) (j : α), g (is.foldl f s) j = if j ∈ is then v (g s j) else g s j := by
  induction is with
  | nil => intro s j; rw [if_neg not_mem_nil]; rfl
  | cons i is ih =>
    intro s j
    obtain ⟨hi, hnodup'⟩ := nodup_cons.mp hnodup
    rw [foldl_cons, ih hnodup']
    by_cases hj : j = i
    · subst hj
      rw [if_neg hi, if_pos mem_cons_self, hself]
    · rw [hother s i j hj]
      simp [hj]

/-! ## Total runs, and inputs that arrive in pieces -/

/-- Run a total transducer over the letters, concatenating the outputs. -/
def run (push : τ → α → τ × List γ) : τ → List α → τ × List γ
  | t, [] => (t, [])
  | t, a :: as => ((run push (push t a).1 as).1, (push t a).2 ++ (run push (push t a).1 as).2)

theorem run_append (push : τ → α → τ × List γ) (t : τ) (as bs : List α) :
    run push t (as ++ bs) =
      ((run push (run push t as).1 bs).1,
        (run push t as).2 ++ (run push (run push t as).1 bs).2) := by
  induction as generalizing t with
  | nil => rfl
  | cons a as ih => simp only [cons_append, run, ih, append_assoc]

theorem run_fst (push : τ → α → τ × List γ) (t : τ) (as : List α) :
    (run push t as).1 = as.foldl (fun t a => (push t a).1) t := by
  induction as generalizing t with
  | nil => rfl
  | cons a as ih => exact ih _

theorem run_split (push : τ → α → τ × List γ) (t : τ) (as : List α) (a : α) (bs : List α) :
    (run push t (as ++ a :: bs)).2 =
      (run push t as).2 ++ (push (run push t as).1 a).2 ++
        (run push (push (run push t as).1 a).1 bs).2 := by
  rw [run_append, append_assoc]
  rfl

variable {push : τ → α → τ × List γ}

theorem run_forall_iff {P : γ → Prop} :
    ∀ {as : List α} {t : τ}, (∀ x ∈ (run push t as).2, P x) ↔
      Along (fun t a => ∀ x ∈ (push t a).2, P x) (fun t a => (push t a).1) t as := by
  intro as
  induction as with
  | nil => exact fun {t} => ⟨fun _ => trivial, fun _ _ hx => absurd hx not_mem_nil⟩
  | cons a as ih =>
    intro t
    rw [show (run push t (a :: as)).2 = (push t a).2 ++ (run push (push t a).1 as).2 from rfl,
      forall_mem_append]
    exact and_congr_right fun _ => ih

/-- **Invariants of the history**: what each step meeting `R` keeps of the state and of everything
    emitted so far holds at the end of every run whose steps all do. -/
theorem run_history {R : τ → α → Prop} {J : τ → List γ → Prop}
    (hstep : ∀ t out a, J t out → R t a → J (push t a).1 (out ++ (push t a).2)) (as : List α)
    (t : τ) (out : List γ) (hJ : J t out) (h : Along R (fun t a => (push t a).1) t as) :
    J (run push t as).1 (out ++ (run push t as).2) := by
  induction as generalizing t out with
  | nil =>
    rw [show (run push t []).2 = [] from rfl, append_nil]
    exact hJ
  | cons a as ih =>
    obtain ⟨hR, hrest⟩ := h
    have := ih _ _ (hstep t out a hJ hR) hrest
    rwa [append_assoc] at this

/-- **Sooner or later**: what each step keeps due or emits, and a step on `a` emits, is emitted in
    every run with an `a` in it. -/
theorem run_emits {R : τ → α → Prop} {I : τ → Prop} {P : γ → Prop}
    {a : α} (hstep : ∀ t b, I t → R t b → I (push t b).1 ∨ ∃ x ∈ (push t b).2, P x)
    (hdue : ∀ t, I t → R t a → ∃ x ∈ (push t a).2, P x) (as : List α) (t : τ) (hI : I t)
    (h : Along R (fun t a => (push t a).1) t as) (ha : a ∈ as) : ∃ x ∈ (run push t as).2, P x := by
  induction as generalizing t with
  | nil => exact absurd ha not_mem_nil
  | cons b as ih =>
    obtain ⟨hR, hrest⟩ := h
    have hnow : (∃ x ∈ (push t b).2, P x) → ∃ x ∈ (run push t (b :: as)).2, P x := by
      rintro ⟨x, hx, hP⟩
      exact ⟨x, mem_append_left _ hx, hP⟩
    rcases mem_cons.mp ha with rfl | ha
    · exact hnow (hdue t hI hR)
    · rcases hstep t b hI hR with hI' | hemit
      · obtain ⟨x, hx, hP⟩ := ih _ hI' hrest ha
        exact ⟨x, mem_append_right _ hx, hP⟩
      · exact hnow hemit

/-- **Exactness of the history**: if a condition DECIDES whether a step keeps what is said of state
    and history, then it decides it for runs. -/
theorem run_history_iff {R P : τ → α → Prop} {J : τ → List γ → Prop}
    (hstep : ∀ t out a, J t out → R t a → (J (push t a).1 (out ++ (push t a).2) ↔ P t a))
    (as : List α) (t : τ) (out : List γ) (hJ : J t out)
    (h : Along R (fun t a => (push t a).1) t as) :
    (∀ pre, pre <+: as → J (run push t pre).1 (out ++ (run push t pre).2)) ↔
      Along P (fun t a => (push t a).1) t as := by
  induction as generalizing t out with
  | nil =>
    refine ⟨fun _ => trivial, fun _ pre hpre => ?_⟩
    rw [prefix_nil.mp hpre]
    show J t (out ++ [])
    rwa [append_nil]
  | cons a as ih =>
    obtain ⟨hR, hrest⟩ := h
    have hiff := hstep t out a hJ hR
    constructor
    · intro hall
      have hnext : J (push t a).1 (out ++ (push t a).2) := by
        have := hall [a] (cons_prefix_cons.mpr ⟨rfl, nil_prefix⟩)
        rwa [show (run push t [a]).2 = _ from append_nil _] at this
      refine ⟨hiff.mp hnext, (ih _ _ hnext hrest).mp fun pre hpre => ?_⟩
      have := hall (a :: pre) (cons_prefix_cons.mpr ⟨rfl, hpre⟩)
      rwa [append_assoc]
    · rintro ⟨hP, hrest'⟩ pre hpre
      have hnext := hiff.mpr hP
      cases pre with
      | nil =>
        show J t (out ++ [])
        rwa [append_nil]
      | cons b pre =>
        obtain ⟨rfl, hpre'⟩ := cons_prefix_cons.mp hpre
        have := (ih _ _ hnext hrest).mpr hrest' pre hpre'
        rwa [append_assoc] at this

/-- `P` holds of every element of a history and the history before it. -/
def Throughout (P : List γ → γ → Prop) (out : List γ) : Prop :=
  ∀ pre x post, out = pre ++ x :: post → P pre x

theorem throughout_nil (P : List γ → γ → Prop) : Throughout P [] := by
  intro pre x post h
  exact absurd h.symm (append_ne_nil_of_right_ne_nil _ (cons_ne_nil _ _))

variable {P : List γ → γ → Prop} {out : List γ} {x : γ}

theorem throughout_snoc (h : Throughout P out) (hx : P out x) : Throughout P (out ++ [x]) := by
  intro pre y post heq
  rcases eq_nil_or_concat post with rfl | ⟨post', z, rfl⟩
  · obtain ⟨rfl, hxy⟩ := append_inj' heq rfl
    rw [← List.cons.inj hxy |>.1]
    exact hx
  · rw [concat_eq_append, ← cons_append, ← append_assoc] at heq
    exact h pre y post' (append_inj' heq rfl).1

/-- A history grows by elements that meet `P` whatever came before. -/
theorem throughout_append {new : List γ} (h : Throughout P out)
    (hnew : ∀ x ∈ new, ∀ pre, P pre x) : Throughout P (out ++ new) := by
  induction new generalizing out with
  | nil => rwa [append_nil]
  | cons x new ih =>
    rw [append_cons]
    exact ih (throughout_snoc h (hnew x mem_cons_self out))
      fun y hy => hnew y (mem_cons_of_mem _ hy)

theorem throughout_append_iff {new : List γ} :
    Throughout P (out ++ new) ↔
      Throughout P out ∧ Throughout (fun pre x => P (out ++ pre) x) new := by
  constructor
  · intro h
    refine ⟨fun pre x post heq => ?_, fun pre x post heq => ?_⟩
    · exact h pre x (post ++ new) (by rw [heq, append_assoc, cons_append])
    · exact h (out ++ pre) x post (by rw [heq, append_assoc])
  · rintro ⟨hout, hnew⟩ pre x post heq
    -- the element is found in the new part, or in the old one
    rcases append_eq_append_iff.mp heq with ⟨mid, rfl, hmid⟩ | ⟨mid, hmid, hpost⟩
    · exact hnew mid x post hmid
    · cases mid with
      | nil =>
        rw [append_nil] at hmid
        have hfirst : P (out ++ []) x := hnew [] x post hpost.symm
        rwa [append_nil, hmid] at hfirst
      | cons y mid =>
        obtain ⟨rfl, -⟩ := List.cons.inj hpost
        exact hout pre x mid hmid

theorem throughout_singleton : Throughout P [x] ↔ P [] x := by
  constructor
  · exact fun h => h [] x [] rfl
  · exact fun h => throughout_snoc (throughout_nil P) h

/-- **A verdict on the history**: if what a step emits decides, given the history before it, whether
    the step keeps `K`, then `K` holds at every moment of a run exactly when `P` holds throughout
    its history. -/
theorem run_throughout_iff {I : τ → List γ → Prop} {K : τ → Prop}
    (hinv : ∀ t out a, I t out → I (push t a).1 (out ++ (push t a).2))
    (hstep : ∀ t out a, I t out → K t →
      (K (push t a).1 ↔ Throughout (fun pre x => P (out ++ pre) x) (push t a).2)) (as : List α)
    (t : τ) (out : List γ) (hI : I t out) (hK : K t) :
    (∀ pre, pre <+: as → K (run push t pre).1) ↔
      Throughout (fun pre x => P (out ++ pre) x) (run push t as).2 := by
  induction as generalizing t out with
  | nil =>
    refine ⟨fun _ => throughout_nil _, fun _ pre hpre => ?_⟩
    rw [prefix_nil.mp hpre]
    exact hK
  | cons a as ih =>
    have hnow := hstep t out a hI hK
    have hrest := ih (push t a).1 (out ++ (push t a).2) (hinv t out a hI)
    rw [show (run push t (a :: as)).2 = (push t a).2 ++ (run push (push t a).1 as).2 from rfl,
      throughout_append_iff]
    simp only [append_assoc] at hrest
    constructor
    · intro hall
      have hK' : K (push t a).1 := hall [a] (cons_prefix_cons.mpr ⟨rfl, nil_prefix⟩)
      refine ⟨hnow.mp hK', (hrest hK').mp fun pre hpre => ?_⟩
      exact hall (a :: pre) (cons_prefix_cons.mpr ⟨rfl, hpre⟩)
    · rintro ⟨hP, hPrest⟩ pre hpre
      cases pre with
      | nil => exact hK
      | cons b pre =>
        obtain ⟨rfl, hpre'⟩ := cons_prefix_cons.mp hpre
        exact (hrest (hnow.mpr hP)).mpr hPrest pre hpre'

/-- A step that keeps the history of the run beside its state. -/
def record (push : τ → α → τ × List γ) (r : τ × List γ) (a : α) : τ × List γ :=
  ((push r.1 a).1, r.2 ++ (push r.1 a).2)

theorem foldl_record (push : τ → α → τ × List γ) (as : List α) (r : τ × List γ) :
    as.foldl (record push) r = ((run push r.1 as).1, r.2 ++ (run push r.1 as).2) := by
  induction as generalizing r with
  | nil => rw [run, append_nil]; rfl
  | cons a as ih => rw [foldl_cons, ih, run, record, append_assoc]

theorem record_grows (push : τ → α → τ × List γ) (as : List α) (r : τ × List γ) :
    r.2 <+: (as.foldl (record push) r).2 := by
  rw [foldl_record]
  exact prefix_append _ _

theorem along_record_iff {P : τ → α → Prop} {as : List α} {r : τ × List γ} :
    Along (fun r a => P r.1 a) (record push) r as ↔ Along P (fun t a => (push t a).1) r.1 as := by
  induction as generalizing r with
  | nil => exact Iff.rfl
  | cons a as ih => exact and_congr Iff.rfl ih

/-- `P` holds throughout the history of a run exactly if it holds of what each step adds, given the
    history before it. -/
theorem throughout_record_iff :
    ∀ {as : List α} {t : τ} {past : List γ}, Throughout P past →
      (Throughout P (as.foldl (record push) (t, past)).2 ↔
        Along (fun r a => Throughout (fun pre x => P (r.2 ++ pre) x) (push r.1 a).2)
          (record push) (t, past) as) := by
  intro as
  induction as with
  | nil => exact fun h => iff_of_true h trivial
  | cons a as ih =>
    intro t past hpast
    constructor
    · intro hall
      -- the history only grows, so what it held of its end it holds of this step
      obtain ⟨later, hlater⟩ := record_grows push as (record push (t, past) a)
      have hnow : Throughout P (past ++ (push t a).2) := by
        rw [foldl_cons, ← hlater] at hall
        exact (throughout_append_iff.mp hall).1
      exact ⟨(throughout_append_iff.mp hnow).2, (ih hnow).mp hall⟩
    · rintro ⟨hstep, hrest⟩
      exact (ih (throughout_append_iff.mpr ⟨hpast, hstep⟩)).mpr hrest

/-- The last `n` elements of a history that `p` selects all satisfy `P`. -/
def LastOf (p : γ → Bool) (P : γ → Prop) (n : Nat) (out : List γ) : Prop :=
  ∃ old new, out.filter p = old ++ new ∧ new.length = n ∧ ∀ x ∈ new, P x

theorem lastOf_zero (p : γ → Bool) (P : γ → Prop) (out : List γ) : LastOf p P 0 out :=
  ⟨out.filter p, [], (append_nil _).symm, rfl, fun _ h => absurd h not_mem_nil⟩

theorem LastOf.snoc {p : γ → Bool} {P : γ → Prop} {n : Nat} (h : LastOf p P n out)
    (hp : p x = true) (hP : P x) : LastOf p P (n + 1) (out ++ [x]) := by
  obtain ⟨old, new, heq, hlen, hnew⟩ := h
  refine ⟨old, new ++ [x], ?_, ?_, ?_⟩
  · rw [filter_append, heq, filter_cons_of_pos hp, filter_nil, append_assoc]
  · rw [length_append, hlen, length_singleton]
  · intro y hy
    rcases mem_append.mp hy with hy | hy
    · exact hnew y hy
    · rw [mem_singleton.mp hy]
      exact hP

theorem LastOf.skip {p : γ → Bool} {P : γ → Prop} {n : Nat} (h : LastOf p P n out)
    (hp : p x ≠ true) : LastOf p P n (out ++ [x]) := by
  obtain ⟨old, new, heq, hlen, hnew⟩ := h
  refine ⟨old, new, ?_, hlen, hnew⟩
  rw [filter_append, filter_cons_of_neg hp, filter_nil, append_nil, heq]

/-- A history holds a `mark`, and no `stop` after it. -/
def Since (mark stop : γ → Prop) (out : List γ) : Prop :=
  ∃ old x new, out = old ++ x :: new ∧ mark x ∧ ∀ y ∈ new, ¬ stop y

theorem not_since_nil (mark stop : γ → Prop) : ¬ Since mark stop [] := by
  rintro ⟨old, x, new, h, -⟩
  exact absurd h.symm (append_ne_nil_of_right_ne_nil _ (cons_ne_nil _ _))

theorem since_snoc {mark stop : γ → Prop}
    (h : Since mark stop (out ++ [x])) : mark x ∨ (Since mark stop out ∧ ¬ stop x) := by
  obtain ⟨old, y, new, heq, hmark, hstop⟩ := h
  rcases eq_nil_or_concat new with rfl | ⟨new', z, rfl⟩
  · obtain ⟨-, hxy⟩ := append_inj' heq rfl
    rw [(List.cons.inj hxy).1]
    exact .inl hmark
  · rw [concat_eq_append, ← cons_append, ← append_assoc] at heq
    obtain ⟨hout, hxz⟩ := append_inj' heq rfl
    rw [concat_eq_append] at hstop
    rw [(List.cons.inj hxz).1]
    exact .inr ⟨⟨old, y, new', hout, hmark, fun w hw => hstop w (mem_append_left _ hw)⟩,
      hstop z (mem_append_right _ (mem_singleton.mpr rfl))⟩

/-- **Refinement of a transducer**: if from every pair of related states each step emits what `R`
    allows between the abstract states, and ends in related ones, then so does every run. -/
theorem run_refines {R : σ → List γ → σ → Prop} {S : τ → σ → Prop} (hnil : ∀ x, R x [] x)
    (htrans : ∀ {x y z us vs}, R x us y → R y vs z → R x (us ++ vs) z)
    (hstep : ∀ t x a, S t x → ∃ y, R x (push t a).2 y ∧ S (push t a).1 y) (as : List α) (t : τ)
    (x : σ) (hS : S t x) : ∃ y, R x (run push t as).2 y ∧ S (run push t as).1 y := by
  induction as generalizing t x with
  | nil => exact ⟨x, hnil x, hS⟩
  | cons a as ih =>
    obtain ⟨y, hR, hS'⟩ := hstep t x a hS
    obtain ⟨z, hR', hS''⟩ := ih _ y hS'
    exact ⟨z, htrans hR hR', hS''⟩

/-- **Pieces do not matter where they are treated letter by letter.** -/
theorem runE_refines_run {δ : Type} {step : σ → δ → Except ε (σ × List β)} {letters : δ → List α}
    {P : σ → δ → Prop} {abs : σ → τ} {emit : List β → List γ}
    (hnil : emit [] = []) (happ : ∀ xs ys, emit (xs ++ ys) = emit xs ++ emit ys)
    (hstep : ∀ s d, I s → P s d → ∃ t out, step s d = .ok (t, out) ∧ I t ∧
      (abs t, emit out) = run push (abs s) (letters d)) (cs : List δ) (s : σ) (hs : I s)
    (h : AlongE P step s cs) :
    ∃ t out, runE step s cs = .ok (t, out) ∧ I t ∧
      (abs t, emit out) = run push (abs s) (cs.flatMap letters) := by
  induction cs generalizing s with
  | nil => exact ⟨s, [], rfl, hs, by rw [hnil]; rfl⟩
  | cons d cs ih =>
    obtain ⟨hP, hrest⟩ := h
    obtain ⟨t, out, hst, ht, hpush⟩ := hstep s d hs hP
    obtain ⟨u, outs, hrun, hu, hpushes⟩ := ih t ht (hrest t out hst)
    refine ⟨u, out ++ outs, runE_cons_iff.mpr ⟨t, out, outs, hst, hrun, rfl⟩, hu, ?_⟩
    rw [flatMap_cons, run_append, ← hpush, ← hpushes, happ]

end TsAnalyzer.Lib
