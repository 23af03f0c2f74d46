import Mathlib.Data.Rat.Encodable
import Mathlib.Data.Rat.Floor
import SourceMetrics.Grid.Number

/-! # Exact arithmetic

The library computes in any model of the real numbers. Here the model is an ordered field, without
any rounding, to which infinite values and a value that is no number are added. A field has no
logarithms of its own, and no codes by which fractions are told apart as tokens, so both are given.
Statements about exact arithmetic hold in this model for all that may be given, in particular for a
code that tells apart whatever fractions a run meets. Over the rational numbers they can be
evaluated.

Numbers are not written.
-/

namespace SourceMetrics

/-- What is given with a field: functions that stand for the natural and the binary logarithm of
positive numbers, and a code for its numbers. -/
structure FieldKit (K : Type) where
  natural : K → K
  binary : K → K
  code : K → Nat

/-- Straight lines in place of logarithms, for evaluations that take none, and a code that tells all
rational numbers apart. -/
def FieldKit.lines : FieldKit ℚ where
  natural x := x - 1
  binary x := x - 1
  code := Encodable.encode

/-- A number of a field, an infinite value, or no number. -/
inductive Exact (K : Type) (kit : FieldKit K) where
  | finite (x : K)
  | infinite
  | negInfinite
  | nan

namespace Exact

variable {K : Type} [Field K] [LinearOrder K] {kit : FieldKit K}

/-- The infinite value with the sign of a number, and no number for zero. -/
def signed (x : K) : Exact K kit :=
  if 0 < x then .infinite else if x < 0 then .negInfinite else .nan

/-- A value with the other sign. -/
def neg : Exact K kit → Exact K kit
  | .finite x => .finite (-x)
  | .infinite => .negInfinite
  | .negInfinite => .infinite
  | .nan => .nan

/-- The sum of two values. Opposite infinite values have none. -/
def add : Exact K kit → Exact K kit → Exact K kit
  | .finite x, .finite y => .finite (x + y)
  | .nan, _ | _, .nan => .nan
  | .infinite, .negInfinite | .negInfinite, .infinite => .nan
  | .infinite, _ | _, .infinite => .infinite
  | .negInfinite, _ | _, .negInfinite => .negInfinite

/-- The product of two values. An infinite value and zero have none. -/
def mul : Exact K kit → Exact K kit → Exact K kit
  | .finite x, .finite y => .finite (x * y)
  | .nan, _ | _, .nan => .nan
  | .infinite, .finite x | .finite x, .infinite => signed x
  | .negInfinite, .finite x | .finite x, .negInfinite => neg (signed x)
  | .infinite, .infinite | .negInfinite, .negInfinite => .infinite
  | .infinite, .negInfinite | .negInfinite, .infinite => .negInfinite

/-- The quotient of two values. Two infinite values have none, and neither have two zeros. -/
def div : Exact K kit → Exact K kit → Exact K kit
  | .finite x, .finite y => if y = 0 then signed x else .finite (x / y)
  | .nan, _ | _, .nan => .nan
  | .finite _, _ => .finite 0
  | .infinite, .finite y => if y < 0 then .negInfinite else .infinite
  | .negInfinite, .finite y => if y < 0 then .infinite else .negInfinite
  | _, _ => .nan

/-- A function of positive numbers at a value. An infinite value stays as it is. -/
def ofPositive (function : K → K) : Exact K kit → Exact K kit
  | .finite x => if 0 < x then .finite (function x) else .nan
  | .infinite => .infinite
  | _ => .nan

/-- The strict order of numbers and infinite values. -/
def less : Exact K kit → Exact K kit → Bool
  | .finite x, .finite y => decide (x < y)
  | .negInfinite, .finite _ | .negInfinite, .infinite | .finite _, .infinite => true
  | _, _ => false

/-- Equality of numbers and infinite values. -/
def equal : Exact K kit → Exact K kit → Bool
  | .finite x, .finite y => decide (x = y)
  | .infinite, .infinite | .negInfinite, .negInfinite => true
  | _, _ => false

instance [FloorRing K] : Arithmetic (Exact K kit) where
  quotient numerator denominator := div (.finite numerator) (.finite denominator)
  decimal negative digits exponent :=
    .finite ((if negative then -1 else 1) * digits * 10 ^ exponent)
  add := add
  sub x y := add x (neg y)
  mul := mul
  div := div
  log := ofPositive kit.natural
  log2 := ofPositive kit.binary
  log2Nat count := .finite (kit.binary count)
  nan := .nan
  infinite := .infinite
  negInfinite := .negInfinite
  isNaN
    | .nan => true
    | _ => false
  isInfinite
    | .infinite | .negInfinite => true
    | _ => false
  isNegative
    | .finite x => decide (x < 0)
    | .negInfinite => true
    | _ => false
  equal := equal
  less := less
  whole?
    | .finite x => some (if 0 ≤ x then ⌊x⌋ else ⌈x⌉)
    | _ => none
  code
    | .finite x => kit.code x + 2
    | .infinite => 1
    | _ => 0
  text _ := ""
  twoPlaces _ := ""

theorem ofInt_eq [FloorRing K] (i : Int) : (Arithmetic.ofInt i : Exact K kit) = .finite i := by
  change div (.finite (i : K)) (.finite ((1 : Int) : K)) = _
  simp [div]

/-- Whole numbers are in the range of exact arithmetic. -/
theorem entryReal_int [FloorRing K] (i : Int) :
    (Value.int i : Value (Exact K kit)).entryReal = .ok (.finite i) := by
  have inRange : (Arithmetic.ofInt? i : Option (Exact K kit)) = some (.finite i) := by
    rw [Arithmetic.ofInt?, ofInt_eq]
    rfl
  change (Number.int i : Number (Exact K kit)).toReal = _
  rw [Number.toReal, inRange]

/-- A number is zero exactly if it is the zero of the field. -/
theorem isZero_finite [FloorRing K] (x : K) :
    Arithmetic.isZero (.finite x : Exact K kit) = decide (x = 0) := by
  rw [Arithmetic.isZero, Arithmetic.zero, ofInt_eq, Int.cast_zero]
  rfl

end Exact

end SourceMetrics
