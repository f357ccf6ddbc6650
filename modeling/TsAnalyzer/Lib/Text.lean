/-
  Text as a C program sees it: the bytes of a `char*` up to its end, and the functions of the C
  library that read them.
-/
import Mathlib

namespace TsAnalyzer.Lib

/-- The bytes of a `char*`, up to its end. -/
abbrev Text := List UInt8

/-- The bytes of an ASCII literal. -/
def ascii (s : String) : Text := s.toList.map fun c => UInt8.ofNat c.toNat

def toLower (c : UInt8) : UInt8 := if 65 ≤ c ∧ c ≤ 90 then c + 32 else c

def atoll (s : Text) : Int :=
  let s := s.dropWhile fun c => c = 32 ∨ (9 ≤ c ∧ c ≤ 13)
  let digits := (if s.head? = some 45 ∨ s.head? = some 43 then s.tail else s).takeWhile fun c =>
    48 ≤ c ∧ c ≤ 57
  let n : Int := digits.foldl (fun n c => n * 10 + (c.toNat - 48 : Nat)) 0
  if s.head? = some 45 then max (-n) (-(2 ^ 63)) else min n (2 ^ 63 - 1)

/-- `(uint64_t)atoll(s)`. -/
def atoull (s : Text) : Nat := (atoll s % 2 ^ 64).toNat

def strstr (s t : Text) : Option Nat :=
  (List.range (s.length + 1)).find? fun i => t.isPrefixOf (s.drop i)

end TsAnalyzer.Lib
