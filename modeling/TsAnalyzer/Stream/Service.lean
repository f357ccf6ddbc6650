/-
  The service descriptor (`handle_service`, `src/tsa_descriptors.c`): two names with their lengths.

  1. **Program** — with every byte it reads (`Traced`).  The provider is stored BEFORE the length of
     the service is read, and that length may be the first byte behind the body.
  2. **Specification** — both names of the program are stored, or nothing changes (`Atomic`).
-/
import TsAnalyzer.Lib.Bytes
import TsAnalyzer.Lib.Text
import TsAnalyzer.Lib.Traced
import TsAnalyzer.Stream.ProgramMap

namespace TsAnalyzer.Stream

open Lib Lib.Traced List Function

/-! ## Program -/

/-- `find_program`: by the PMT PID, or by the program number. -/
def findProgram (m : TsModel) (pid : Nat) : Option Nat :=
  match (if pid < 8192 then m.pidToProgramIdx pid else none).filter (· < m.programs.length) with
  | some idx => some idx
  | none => m.programs.findIdx? (·.programNumber = pid)

/-- `provider_name` and `service_name`. -/
structure Names where
  provider : Text
  service : Text

/-- The model, with the names of its programs. -/
structure Services where
  model : TsModel
  names : Nat → Names

def trimSpaces (s : Text) : Text := s.rdropWhile fun c => c = 32 ∨ c = 9 ∨ c = 13 ∨ c = 10

/-- The name in a buffer that these bytes and a NUL were copied into, and that was trimmed. -/
def nameOf (bytes : List UInt8) : Text := trimSpaces (bytes.takeWhile (· ≠ 0))

/-- `memcpy` of `n` bytes from position `i` on. -/
def loadAll (data : Nat → UInt8) (i n : Nat) : Traced (List UInt8) :=
  each (fun k => load data (i + k)) (List.range n)

def Services.setProvider (s : Services) (p : Nat) (name : Text) : Services :=
  { s with names := update s.names p { s.names p with provider := name } }

def Services.setService (s : Services) (p : Nat) (name : Text) : Services :=
  { s with names := update s.names p { s.names p with service := name } }

/-- `handle_service` on a body of `len` bytes. -/
def handleService (s : Services) (pid : Nat) (data : Nat → UInt8) (len : Nat) : Traced Services :=
  match findProgram s.model pid with
  | none => pure s
  | some p =>
    if len < 3 then pure s
    else do
      let providerLen ← load data 1
      if providerLen.toNat + 2 > len then pure s
      else do
        let provider ← loadAll data 2 (min providerLen.toNat 255)
        let s := s.setProvider p (nameOf provider)
        let serviceLen ← load data (2 + providerLen.toNat)
        if providerLen.toNat + serviceLen.toNat + 3 > len then pure s
        else do
          let service ← loadAll data (3 + providerLen.toNat) (min serviceLen.toNat 255)
          pure (s.setService p (nameOf service))

/-! ## Specification -/

/-- The coded names, if the body is long enough for them. -/
def codedNames (data : Nat → UInt8) (len : Nat) : Option Names :=
  let providerLen := (data 1).toNat
  let serviceLen := (data (2 + providerLen)).toNat
  if 3 ≤ len ∧ providerLen + 2 < len ∧ providerLen + serviceLen + 3 ≤ len then
    some ⟨nameOf (bytesAt data 2 providerLen), nameOf (bytesAt data (3 + providerLen) serviceLen)⟩
  else none

/-- The reads are in the body, and both names are stored or nothing changes. -/
def Atomic (s : Services) (pid : Nat) (data : Nat → UInt8) (len : Nat) : Prop :=
  Within len (handleService s pid data len) ∧
    (handleService s pid data len).value =
      match findProgram s.model pid, codedNames data len with
      | some p, some names => { s with names := update s.names p names }
      | _, _ => s

/-- Where the provider fits in, the service does too; or its length is there at least, and the
    program has the provider already. -/
def Unbroken (s : Services) (pid : Nat) (data : Nat → UInt8) (len : Nat) : Prop :=
  ∀ p ∈ findProgram s.model pid, 3 ≤ len → (data 1).toNat + 2 ≤ len →
    (data 1).toNat + 2 < len ∧ ((data 1).toNat + (data (2 + (data 1).toNat)).toNat + 3 ≤ len ∨
      (s.names p).provider = nameOf (bytesAt data 2 (data 1).toNat))

/-! ## Correctness -/

theorem within_loadAll {data : Nat → UInt8} {i n len : Nat} (h : i + n ≤ len) :
    Within len (loadAll data i n) :=
  within_each fun k hk => within_load.mpr (by rw [mem_range] at hk; omega)

theorem loadAll_value (data : Nat → UInt8) (i n : Nat) :
    (loadAll data i n).value = bytesAt data i n := each_value ..

theorem setProvider_eq_iff (s : Services) (p : Nat) (name : Text) :
    s.setProvider p name = s ↔ (s.names p).provider = name := by
  constructor
  · intro h
    have hp := congrArg (fun s : Services => (s.names p).provider) h
    simp only [Services.setProvider, update_self] at hp
    exact hp.symm
  · rintro rfl
    rw [Services.setProvider, update_eq_self]

/-- **Atomic updates, exactly where.** -/
theorem service_atomic_iff (s : Services) (pid : Nat) (data : Nat → UInt8) (len : Nat) :
    Atomic s pid data len ↔ Unbroken s pid data len := by
  rw [Atomic, Unbroken, handleService]
  cases hfound : findProgram s.model pid with
  | none => exact iff_of_true ⟨within_pure len s, rfl⟩ fun p hp => by cases hp
  | some p =>
    have hmin : ∀ b : UInt8, min b.toNat 255 = b.toNat := fun b => by
      have := b.toNat_lt
      omega
    simp only [Option.mem_some_iff, forall_eq', codedNames, hmin]
    by_cases hlen : len < 3
    · simp only [if_pos hlen, Nat.not_le.mpr hlen, false_and, if_false]
      exact iff_of_true ⟨within_pure len s, rfl⟩ fun h => absurd h id
    rw [if_neg hlen]
    have hone : 1 < len := by omega
    simp only [within_bind, bind_value, load_value, within_load, hone, true_and]
    by_cases hprovider : (data 1).toNat + 2 > len
    · simp only [hprovider, if_true, within_pure, pure_value, true_and]
      rw [if_neg (by omega)]
      exact iff_of_true rfl fun _ h => absurd hprovider (by omega)
    simp only [hprovider, if_false, within_bind, bind_value, load_value, within_load, loadAll_value,
      within_loadAll (show 2 + (data 1).toNat ≤ len by omega), true_and]
    by_cases hservice : (data 1).toNat + (data (2 + (data 1).toNat)).toNat + 3 > len
    · simp only [hservice, if_true, within_pure, pure_value, and_true]
      rw [if_neg (by omega), setProvider_eq_iff]
      constructor
      · rintro ⟨hread, hsame⟩ - -
        exact ⟨by omega, .inr hsame⟩
      · intro h
        obtain ⟨hread, hfits | hsame⟩ := h (by omega) (by omega)
        · exact absurd hservice (by omega)
        · exact ⟨by omega, hsame⟩
    · simp only [hservice, if_false, within_map, bind_value, pure_value, loadAll_value]
      rw [if_pos (by omega)]
      refine iff_of_true ⟨⟨by omega, within_loadAll (by omega)⟩, ?_⟩ fun _ _ =>
        ⟨by omega, .inl (by omega)⟩
      simp only [Services.setProvider, Services.setService, update_self, update_idem]

/-- A body of three bytes, with a provider of one: the length of the service is read behind it, and
    the provider is stored. -/
theorem provider_without_service :
    let s : Services := ⟨⟨[⟨1, 256, []⟩], fun _ => some 0⟩, fun _ => ⟨[], []⟩⟩
    let data := fun i => ([0x01, 0x01, 0x41, 0xFF] : List UInt8).getD i 0
    ((handleService s 256 data 3).value.names 0).provider = [0x41] ∧ ¬ Atomic s 256 data 3 := by
  intro s data
  refine ⟨by decide, fun h => ?_⟩
  have hread := h.1 3 (by decide)
  exact absurd hread (by decide)

end TsAnalyzer.Stream
