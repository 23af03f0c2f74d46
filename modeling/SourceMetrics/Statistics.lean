import SourceMetrics.Grid.Number
import SourceMetrics.Value.Field

/-!
# Medians and percentages
-/

namespace SourceMetrics.Statistics

variable {R : Type} [Arithmetic R]

/-- Whether a number may stand before another one in ascending order. -/
def inOrder (x y : R) : Bool :=
  !Arithmetic.less y x

/-- The numbers in ascending order. -/
def ascending (xs : List R) : List R :=
  xs.mergeSort inOrder

/-- The mean of numbers, which are added to zero one after another. -/
def mean (xs : List R) : R :=
  Arithmetic.div (xs.foldl Arithmetic.add Arithmetic.zero) (Arithmetic.ofInt xs.length)

/-- The mean of the one or two numbers in the middle of numbers in ascending order. -/
def middle (sorted : List R) : R :=
  let half := sorted.length / 2
  if sorted.length % 2 = 1 then
    mean [sorted.getD half Arithmetic.zero]
  else
    mean [sorted.getD (half - 1) Arithmetic.zero, sorted.getD half Arithmetic.zero]

/-- The median of numbers. There is none if one of them is no number, and without any number it is
zero. -/
def median (xs : List R) : R :=
  if xs.isEmpty then Arithmetic.zero
  else if xs.any Arithmetic.isNaN then Arithmetic.nan
  else middle (ascending xs)

/-- The median of the numbers in a grid among the values. Without any item it is zero, and without
any number in its items there is none. -/
def medianOf (values : Value R) : Except Fault R := do
  let count ← values.length
  if count = 0 then
    return Arithmetic.zero
  let (_, grid) ← Grid.reals values
  let numbers := grid.entries
  return if numbers.isEmpty then Arithmetic.nan else median numbers

/-- A hundred times a number. -/
def hundredfold (x : R) : R :=
  Arithmetic.mul x (Arithmetic.ofInt 100)

/-- A value as a percentage of a limit, zero if the limit is zero. -/
def percentify (value limit : Value R) : Except Fault R := do
  if limit.isZero then
    return Arithmetic.zero
  let share ← value.dividedBy limit
  return hundredfold share

/-- A count as a percentage of a limit that it does not exceed. -/
def percentage (count limit : Nat) : R :=
  if limit = 0 then Arithmetic.zero
  else hundredfold (Arithmetic.quotient count limit)

end SourceMetrics.Statistics
