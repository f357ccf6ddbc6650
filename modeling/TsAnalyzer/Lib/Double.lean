/-
  Floating point as a PARAMETER.

  A program that computes in `double` is written over any type with the operations of `Double`; what
  is then proved about its integers and flags holds however the operations round.  The one law is
  that nothing is below itself, which is true of NaN as well.  The exact rationals are one such
  type, for results about the formulas themselves and for runs.
-/
import Mathlib

namespace TsAnalyzer.Lib

/-- The operations of `double`. -/
class Double (δ : Type) extends Add δ, Sub δ, Mul δ, Div δ where
  /-- A literal, or an integer that is converted. -/
  lit : ℚ → δ
  abs : δ → δ
  /-- `x < y`. -/
  lt : δ → δ → Bool
  lt_self : ∀ x, lt x x = false
  /-- Conversion to an integer type, toward zero. -/
  trunc : δ → Int
  /-- Rounded to `float`. -/
  toFloat : δ → δ

/-- Exact arithmetic. -/
instance exactDouble : Double ℚ where
  lit x := x
  abs x := |x|
  lt x y := decide (x < y)
  lt_self x := decide_eq_false (lt_irrefl x)
  trunc x := if 0 ≤ x then ⌊x⌋ else ⌈x⌉
  toFloat x := x

end TsAnalyzer.Lib
