import Mathlib.Data.Nat.Cast.Defs
import Mathlib.Data.Int.Log
import Mathlib.Data.Rat.Floor
import Mathlib.Algebra.Order.Floor.Semiring

/-!
# The arithmetic of `double`

Fingerprints and divergences are `double`s. The flow code uses a handful of operations on them, and
`Double` is that handful: no law is asked for, so a statement over every `Double R` holds of the
rounding machine arithmetic as well as of the reals. A statement about exact values instantiates
`R` with an ordered field through `Double.exact`.
-/

namespace Vsid

/-- The operations on `double` that the meters and the matching loop perform. -/
class Double (R : Type) extends
    Zero R, One R, Add R, Sub R, Mul R, Div R, Neg R, NatCast R, LT R, BEq R where
  decLt : DecidableLT R
  log2 : R → R
  /-- The conversion to `uint64_t`, which drops the fraction. -/
  trunc : R → Nat

instance Double.instDecidableLT {R : Type} [Double R] : DecidableLT R := Double.decLt

/-- The exact arithmetic of an ordered field, with the logarithm handed in. -/
@[reducible] def Double.exact {R : Type} [Field R] [LinearOrder R] [FloorSemiring R]
    (log2 : R → R) : Double R where
  decLt := inferInstance
  log2 := log2
  trunc := Nat.floor

/-- Rational arithmetic with the integer part of the logarithm, in which a run can be evaluated. -/
instance : Double ℚ := Double.exact fun x => (Int.log 2 x : ℚ)

end Vsid
