import SourceMetrics.Real.Arithmetic
import SourceMetrics.Real.Decimal

/-!
# The arithmetic that the program runs in

Doubles with the usual operations. Quotients of integers are rounded once, from the exact
quotient, so that two integers far out of range may still have an ordinary quotient.

A value that is no number has a sign all the same. Its bits do not tell, so the sign is kept beside
it: an operation passes on the sign of the first operand that is no number, and an operation on
numbers that has no result gives a negative one.
-/

namespace SourceMetrics

/-- A double, with the sign that it has if it is no number. -/
structure Binary64 where
  value : Float
  negativeNaN : Bool := false

namespace Binary64

/-- The sign of the result of an operation on two doubles, if that result is no number. -/
def resultSign (x y : Binary64) : Bool :=
  if x.value.isNaN then x.negativeNaN
  else if y.value.isNaN then y.negativeNaN
  else true

/-- Carry out an operation on two doubles. -/
def combine (operation : Float → Float → Float) (x y : Binary64) : Binary64 where
  value := operation x.value y.value
  negativeNaN := resultSign x y

/-- Carry out an operation on a double. -/
def change (operation : Float → Float) (x : Binary64) : Binary64 where
  value := operation x.value
  negativeNaN := if x.value.isNaN then x.negativeNaN else true

/-- Whether a double has the negative sign. -/
def isNegative (x : Binary64) : Bool :=
  match Double.ofFloat x.value with
  | .nan => x.negativeNaN
  | .infinite negative => negative
  | .finite negative _ _ => negative

end Binary64

instance : Arithmetic Binary64 where
  quotient numerator denominator := ⟨Double.nearest numerator denominator, false⟩
  decimal negative digits exponent := ⟨Double.nearestDecimal negative digits exponent, false⟩
  add := Binary64.combine Float.add
  sub := Binary64.combine Float.sub
  mul := Binary64.combine Float.mul
  div := Binary64.combine Float.div
  log := Binary64.change Float.log
  log2 := Binary64.change Float.log2
  log2Nat n := ⟨Double.log2Nat n, false⟩
  nan := ⟨0.0 / 0.0, false⟩
  infinite := ⟨1.0 / 0.0, false⟩
  negInfinite := ⟨-1.0 / 0.0, false⟩
  isNaN x := x.value.isNaN
  isInfinite x := x.value.isInf
  isNegative := Binary64.isNegative
  equal x y := x.value == y.value
  less x y := decide (x.value < y.value)
  whole? x := (Double.ofFloat x.value).whole?
  code x := x.value.toBits.toNat
  text x := Layout.standard.write x.value
  twoPlaces x := Layout.standard.writeFixed 2 x.value

end SourceMetrics
