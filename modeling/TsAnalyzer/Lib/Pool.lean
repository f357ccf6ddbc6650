/-
  Any number of concurrent calls on shared memory, one atomic step at a time.

  A step may depend on a `choice` (a weak compare-and-swap that fails for no reason).  What a step
  can do is said once (`step_cases`); `run_invariant` is the packaged induction.
-/
import TsAnalyzer.Lib.Run

namespace TsAnalyzer.Lib.Pool

open List

variable {σ κ ρ α β : Type}

/-! ## Calls in progress -/

/-- What a step leaves of its call. -/
inductive Progress (κ β : Type) where
  | running (c : κ)
  | returned (b : β)

/-- A program: its entry, and its atomic steps. -/
structure Program (σ κ ρ α β : Type) where
  enter : ρ → κ
  step : σ → κ → α → σ × Progress κ β

/-- A call in progress, and the instant it started. -/
structure Running (κ : Type) where
  since : Nat
  call : κ

/-- Shared memory and the calls in progress, after `clock` steps. -/
structure System (σ κ : Type) where
  clock : Nat
  shared : σ
  calls : List (Running κ)

/-- No call is in progress. -/
def System.start (shared : σ) : System σ κ := ⟨0, shared, []⟩

/-- A new call, or one step of the `i`-th call in progress. -/
inductive Act (ρ α : Type) where
  | call (request : ρ)
  | advance (i : Nat) (choice : α)

/-- One step, with the result of a call that returns and the instant that call started. -/
def step (P : Program σ κ ρ α β) (s : System σ κ) : Act ρ α → System σ κ × List (Nat × β)
  | .call request =>
    (⟨s.clock + 1, s.shared, s.calls ++ [⟨s.clock, P.enter request⟩]⟩, [])
  | .advance i choice =>
    match s.calls[i]? with
    | none => ({ s with clock := s.clock + 1 }, [])
    | some r =>
      match P.step s.shared r.call choice with
      | (shared, .running c) => (⟨s.clock + 1, shared, s.calls.set i ⟨r.since, c⟩⟩, [])
      | (shared, .returned b) => (⟨s.clock + 1, shared, s.calls.eraseIdx i⟩, [(r.since, b)])

def next (P : Program σ κ ρ α β) (s : System σ κ) (a : Act ρ α) : System σ κ := (step P s a).1

variable (P : Program σ κ ρ α β)

variable (s : System σ κ) (a : Act ρ α) (as : List (Act ρ α))

theorem run_next : (run (step P) s as).1 = as.foldl (next P) s :=
  run_fst (step P) s as

/-! ## What a step can do -/

theorem split_at {l : List κ} {i : Nat} {c : κ} (h : l[i]? = some c) :
    ∃ pre post, l = pre ++ c :: post ∧ (∀ d, l.set i d = pre ++ d :: post) ∧
      l.eraseIdx i = pre ++ post := by
  obtain ⟨hi, hc⟩ := List.getElem?_eq_some_iff.mp h
  refine ⟨l.take i, l.drop (i + 1), ?_, fun d => ?_, eraseIdx_eq_take_drop_succ l i⟩
  · rw [← hc, cons_getElem_drop_succ, take_append_drop]
  · exact set_eq_take_append_cons_drop.trans (if_pos hi)

theorem step_cases :
    (∃ request, a = .call request ∧
      step P s a = (⟨s.clock + 1, s.shared, s.calls ++ [⟨s.clock, P.enter request⟩]⟩, [])) ∨
    (step P s a = ({ s with clock := s.clock + 1 }, [])) ∨
    ∃ i choice pre r post m, a = .advance i choice ∧ s.calls[i]? = some r ∧
      s.calls = pre ++ r :: post ∧
      ((∃ c, P.step s.shared r.call choice = (m, .running c) ∧
          step P s a = (⟨s.clock + 1, m, pre ++ ⟨r.since, c⟩ :: post⟩, [])) ∨
        ∃ b, P.step s.shared r.call choice = (m, .returned b) ∧
          step P s a = (⟨s.clock + 1, m, pre ++ post⟩, [(r.since, b)])) := by
  cases a with
  | call request => exact .inl ⟨request, rfl, rfl⟩
  | advance i choice =>
    refine .inr ?_
    cases hi : s.calls[i]? with
    | none => exact .inl (by simp only [step, hi])
    | some r =>
      obtain ⟨pre, post, hcalls, hset, herase⟩ := split_at hi
      refine .inr ⟨i, choice, pre, r, post, (P.step s.shared r.call choice).1, rfl, hi, hcalls, ?_⟩
      cases hstep : P.step s.shared r.call choice with
      | mk m progress =>
        cases progress with
        | running c => exact .inl ⟨c, rfl, by simp only [step, hi, hstep, hset]⟩
        | returned b => exact .inr ⟨b, rfl, by simp only [step, hi, hstep, herase]⟩

/-! ## Invariants -/

/-- **An invariant of memory, calls and results**: what entering, going on and returning keep holds
    after every run. -/
theorem run_invariant {P : Program σ κ ρ α β} {I : σ → List κ → List β → Prop}
    (henter : ∀ m cs log request, I m cs log → I m (cs ++ [P.enter request]) log)
    (hrunning : ∀ m pre c post log choice m' c', I m (pre ++ c :: post) log →
      P.step m c choice = (m', .running c') → I m' (pre ++ c' :: post) log)
    (hreturned : ∀ m pre c post log choice m' b, I m (pre ++ c :: post) log →
      P.step m c choice = (m', .returned b) → I m' (pre ++ post) (log ++ [b]))
    (as : List (Act ρ α)) (m : σ) (hstart : I m [] []) :
    I (run (step P) (.start m) as).1.shared ((run (step P) (.start m) as).1.calls.map Running.call)
      ((run (step P) (.start m) as).2.map Prod.snd) := by
  have hstep : ∀ (s : System σ κ) (log : List β) (a : Act ρ α),
      I s.shared (s.calls.map Running.call) log →
      ∃ log', log' = log ++ (step P s a).2.map Prod.snd ∧
        I (step P s a).1.shared ((step P s a).1.calls.map Running.call) log' := by
    intro s log a hI
    refine ⟨_, rfl, ?_⟩
    rcases step_cases P s a with ⟨request, -, heq⟩ | heq |
      ⟨i, choice, pre, r, post, m, -, -, hcalls, ⟨c, hprog, heq⟩ | ⟨b, hprog, heq⟩⟩ <;> rw [heq]
    · simp only [map_append, map_cons, map_nil, append_nil]
      exact henter _ _ _ _ hI
    · simp only [map_nil, append_nil]
      exact hI
    · rw [hcalls] at hI
      simp only [map_append, map_cons, map_nil, append_nil] at hI ⊢
      exact hrunning _ _ _ _ _ _ _ _ hI hprog
    · rw [hcalls] at hI
      simp only [map_append, map_cons, map_nil] at hI ⊢
      exact hreturned _ _ _ _ _ _ _ _ hI hprog
  obtain ⟨log, hlog, hI⟩ := run_refines
    (R := fun x us y => y = x ++ us.map Prod.snd)
    (S := fun (s : System σ κ) log => I s.shared (s.calls.map Running.call) log)
    (fun x => (append_nil x).symm)
    (fun h h' => by rw [h', h, append_assoc, map_append]) hstep as
    (System.start m) [] hstart
  rw [nil_append] at hlog
  exact hlog ▸ hI

/-! ## Instants -/

theorem clock_next : (next P s a).clock = s.clock + 1 := by
  unfold next
  rcases step_cases P s a with ⟨_, -, heq⟩ | heq |
    ⟨_, _, _, _, _, _, -, -, -, ⟨_, -, heq⟩ | ⟨_, -, heq⟩⟩ <;> rw [heq]

theorem clock_foldl : ∀ s : System σ κ, (as.foldl (next P) s).clock = s.clock + as.length := by
  induction as with
  | nil => intro s; rfl
  | cons a as ih =>
    intro s
    rw [foldl_cons, ih, clock_next, length_cons]
    omega

/-- Every call in progress started no later than now. -/
def Started (s : System σ κ) : Prop := ∀ r ∈ s.calls, r.since ≤ s.clock

theorem started_next {s : System σ κ} (h : Started s) (a : Act ρ α) : Started (next P s a) := by
  have hlater : ∀ r ∈ s.calls, r.since ≤ s.clock + 1 := fun r hr => Nat.le_succ_of_le (h r hr)
  unfold next
  rcases step_cases P s a with ⟨_, -, heq⟩ | heq |
    ⟨_, _, pre, r, post, _, -, -, hcalls, ⟨c, -, heq⟩ | ⟨_, -, heq⟩⟩ <;> rw [heq] <;> intro r' hr'
  · rcases mem_append.mp hr' with hr' | hr'
    · exact hlater r' hr'
    · rw [mem_singleton.mp hr']
      exact Nat.le_succ _
  · exact hlater r' hr'
  · have hr : r ∈ s.calls := hcalls ▸ mem_append_right _ (mem_cons_self ..)
    rcases mem_append.mp hr' with hr' | hr'
    · exact hlater r' (hcalls ▸ mem_append_left _ hr')
    · rcases mem_cons.mp hr' with rfl | hr'
      · exact hlater r hr
      · exact hlater r' (hcalls ▸ mem_append_right _ (mem_cons_of_mem _ hr'))
  · rcases mem_append.mp hr' with hr' | hr'
    · exact hlater r' (hcalls ▸ mem_append_left _ hr')
    · exact hlater r' (hcalls ▸ mem_append_right _ (mem_cons_of_mem _ hr'))

theorem started_foldl : ∀ s : System σ κ, Started s → Started (as.foldl (next P) s) := by
  induction as with
  | nil => intro s h; exact h
  | cons a as ih => intro s h; exact ih _ (started_next P h a)

end TsAnalyzer.Lib.Pool
