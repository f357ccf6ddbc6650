/-
  Stateful decoders and the codes they read.

  A reader's state `s` is AT a string when that string is what is left to read.  `Decodes At m code a`
  says that `m`, wherever `code` comes next, returns `a` and stops right after it.  The rules follow
  the program, and the code of a whole is the codes of its parts one after the other.
-/
import TsAnalyzer.Lib.Amortized

namespace TsAnalyzer.Lib

variable {σ ι α β γ : Type}

/-- `m` reads `code`, and returns `a`. -/
def Decodes (At : σ → List ι → Prop) (m : StateM σ α) (code : List ι) (a : α) : Prop :=
  ∀ s rest, At s (code ++ rest) → (m s).1 = a ∧ At (m s).2 rest

namespace Decodes

variable {At : σ → List ι → Prop}

theorem pure (a : α) : Decodes At (pure a) [] a := fun _ _ hs => ⟨rfl, hs⟩

variable {a : α} {code : List ι}

theorem bind {m : StateM σ α} {f : α → StateM σ β} {more : List ι} {b : β}
    (hm : Decodes At m code a) (hf : Decodes At (f a) more b) :
    Decodes At (m >>= f) (code ++ more) b := by
  intro s rest hs
  rw [List.append_assoc] at hs
  obtain ⟨hvalue, hnext⟩ := hm s (more ++ rest) hs
  rw [bind_run, hvalue]
  exact hf _ rest hnext

theorem map {m : StateM σ α} (hm : Decodes At m code a) (f : α → β) :
    Decodes At (m >>= fun x => Pure.pure (f x)) code (f a) := by
  have hboth := hm.bind (f := fun x => Pure.pure (f x)) (pure (f a))
  rw [List.append_nil] at hboth
  exact hboth

theorem after {m : StateM σ α} {f : α → StateM σ β} {b : β} (hm : Decodes At m [] a)
    (hf : Decodes At (f a) code b) : Decodes At (m >>= f) code b :=
  hm.bind hf

theorem onlyIf {c : Prop} [Decidable c] {m : StateM σ Unit} (hm : c → Decodes At m code ()) :
    Decodes At (onlyIf c m) (if c then code else []) () := by
  by_cases hc : c
  · rw [TsAnalyzer.Lib.onlyIf, if_pos hc, if_pos hc]
    exact hm hc
  · rw [TsAnalyzer.Lib.onlyIf, if_neg hc, if_neg hc]
    exact pure ()

theorem loop {f : γ → StateM σ Unit} {g : List γ → StateM σ Unit} {code : γ → List ι}
    (hnil : g [] = Pure.pure ()) (hcons : ∀ c cs, g (c :: cs) = f c >>= fun _ => g cs) (cs : List γ)
    (hround : ∀ c ∈ cs, Decodes At (f c) (code c) ()) : Decodes At (g cs) (cs.flatMap code) () := by
  induction cs with
  | nil =>
    rw [hnil]
    exact pure ()
  | cons c cs ih =>
    rw [hcons, List.flatMap_cons]
    exact (hround c List.mem_cons_self).bind (ih fun d hd => hround d (List.mem_cons_of_mem c hd))

end Decodes

end TsAnalyzer.Lib
