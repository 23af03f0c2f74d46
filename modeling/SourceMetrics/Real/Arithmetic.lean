/-!
# Arithmetic with a fraction part

Counts are integers and stay exact. Everything that is divided, averaged or put through a
logarithm lives in a model of the real numbers, and this class is what the library asks of such a
model. The running program uses binary floating point (`SourceMetrics.Real.Binary64`); a statement
"in exact arithmetic" is the same definition read at another instance, so nothing in the library
may look inside `R` except through the operations below.
-/

namespace SourceMetrics

/-- A model of the real numbers, with a value that is no number (`nan`) and infinite values.

No law is asked here: a definition that uses the class is the same program at every instance, and a
theorem names the laws that it needs. -/
class Arithmetic (R : Type) where
  /-- The number nearest to the quotient of two integers, infinite when that is out of range. -/
  quotient : Int → Int → R
  /-- The number nearest to `digits * 10 ^ exponent`, with a sign; infinite when that is out of
  range. -/
  decimal : (negative : Bool) → (digits : Nat) → (exponent : Int) → R
  add : R → R → R
  sub : R → R → R
  mul : R → R → R
  div : R → R → R
  /-- The natural logarithm of a positive number. -/
  log : R → R
  /-- The binary logarithm of a positive number. -/
  log2 : R → R
  /-- The binary logarithm of a positive whole number, which may itself be out of range. -/
  log2Nat : Nat → R
  /-- The value that is no number. -/
  nan : R
  /-- The positive infinite value. -/
  infinite : R
  /-- The negative infinite value. -/
  negInfinite : R
  isNaN : R → Bool
  isInfinite : R → Bool
  /-- Whether a value has the negative sign, which zero and `nan` may have too. -/
  isNegative : R → Bool
  /-- Equality of numbers; `nan` equals nothing. -/
  equal : R → R → Bool
  /-- The strict order of numbers; `nan` is below and above nothing. -/
  less : R → R → Bool
  /-- The whole part, rounded toward zero; none for an infinite value and for `nan`. -/
  whole? : R → Option Int
  /-- A code that tells apart two numbers that are not whole. -/
  code : R → Nat
  /-- The written form of a number. -/
  text : R → String
  /-- The written form with two decimal places. -/
  twoPlaces : R → String

namespace Arithmetic

variable {R : Type} [Arithmetic R]

/-- The number nearest to an integer. -/
def ofInt (i : Int) : R :=
  quotient i 1

/-- The number nearest to an integer, if it is in range. -/
def ofInt? (i : Int) : Option R :=
  if isInfinite (ofInt i : R) then none else some (ofInt i)

/-- The number nearest to a decimal fraction such as `342 / 100`. -/
def fraction (numerator denominator : Nat) : R :=
  quotient numerator denominator

/-- Zero as a number of the model. -/
def zero : R :=
  ofInt 0

/-- One as a number of the model. -/
def one : R :=
  ofInt 1

/-- Whether a number equals zero. -/
def isZero (x : R) : Bool :=
  equal x zero

/-- The integer that a number equals, if there is one. -/
def integer? (x : R) : Option Int :=
  match whole? x with
  | some i => if equal x (ofInt i) then some i else none
  | none => none

end Arithmetic

end SourceMetrics
