/-!
# Rounding quotients to the nearest whole number

One rule serves every place where an exact quotient has to become a whole number: the nearest one,
and of two equally near ones the even one.
-/

namespace SourceMetrics

/-- A power of two. -/
def powerOfTwo (n : Nat) : Nat :=
  Nat.pow 2 n

/-- A power of ten. -/
def powerOfTen (n : Nat) : Nat :=
  Nat.pow 10 n

namespace Rounding

/-- The whole number nearest to `numerator / denominator`; a half goes to the even neighbour. -/
def nearest (numerator denominator : Nat) : Nat :=
  let below := numerator / denominator
  let twice := 2 * (numerator % denominator)
  if twice < denominator then below
  else if denominator < twice then below + 1
  else if below % 2 = 0 then below
  else below + 1

/-- The number of decimal digits of a whole number; zero has one. -/
def digitCount (n : Nat) : Nat :=
  (Nat.toDigits 10 n).length

/-- The exponent of the leading decimal digit of `numerator / denominator`, for positive arguments:
the `p` with `10 ^ p ≤ numerator / denominator < 10 ^ (p + 1)`. -/
def leadingExponent (numerator denominator : Nat) : Int :=
  if denominator ≤ numerator then
    (digitCount (numerator / denominator) : Int) - 1
  else
    let reciprocal := (denominator + numerator - 1) / numerator
    -- The least `j` with `denominator / numerator ≤ 10 ^ j` has this many digits below it.
    let steps := digitCount (reciprocal - 1)
    Int.negOfNat steps

end Rounding

end SourceMetrics
