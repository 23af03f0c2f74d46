import SourceMetrics.Real.Rounding

/-!
# Doubles as exact binary fractions

A finite double is a signed whole number times a power of two. Reading it that way makes printing,
truncation and comparison with integers exact, and rounding a quotient is the way back.
-/

namespace SourceMetrics

/-- What the bits of a double say. -/
inductive Double where
  | nan
  | infinite (negative : Bool)
  /-- The value `mantissa * 2 ^ exponent`, with a sign. -/
  | finite (negative : Bool) (mantissa : Nat) (exponent : Int)
deriving DecidableEq, Repr

namespace Double

/-- The mantissa of a normal double is at least this. -/
def leastNormal : Nat := powerOfTwo 52

/-- The least exponent of a double. -/
def leastExponent : Int := -1074

/-- Read the bits of a double. -/
def ofFloat (x : Float) : Double :=
  let bits := x.toBits.toNat
  let negative := decide (powerOfTwo 63 ≤ bits)
  let biased := bits / leastNormal % 2048
  let trailing := bits % leastNormal
  if biased = 2047 then
    if trailing = 0 then .infinite negative else .nan
  else if biased = 0 then
    .finite negative trailing leastExponent
  else
    .finite negative (trailing + leastNormal) ((biased : Int) - 1075)

/-- The bits of the double nearest to `mantissa * 2 ^ exponent`, where the mantissa has at most 53
bits or is `2 ^ 53`, and fewer than 53 only at the least exponent. -/
def packed (negative : Bool) (mantissa : Nat) (exponent : Int) : Nat :=
  let magnitude :=
    if mantissa < leastNormal then mantissa
    else (exponent + 1075).toNat * leastNormal + (mantissa - leastNormal)
  -- A carry out of the mantissa moves into the exponent by itself; past the largest one it is
  -- the infinite value.
  let limited := min magnitude (2047 * leastNormal)
  if negative then powerOfTwo 63 + limited else limited

/-- The double nearest to `numerator / denominator`, up to sign. -/
def nearestBits (negative : Bool) (numerator denominator : Nat) : Nat :=
  if numerator = 0 then
    packed negative 0 leastExponent
  else
    let spread : Int := (numerator.log2 : Int) - (denominator.log2 : Int)
    -- The binary exponent of the quotient is `spread` or one less.
    let reaches :=
      if 0 ≤ spread then denominator * powerOfTwo spread.toNat ≤ numerator
      else denominator ≤ numerator * powerOfTwo (-spread).toNat
    let leading := if reaches then spread else spread - 1
    let exponent := max (leading - 52) leastExponent
    let mantissa :=
      if 0 ≤ exponent then Rounding.nearest numerator (denominator * powerOfTwo exponent.toNat)
      else Rounding.nearest (numerator * powerOfTwo (-exponent).toNat) denominator
    packed negative mantissa exponent

/-- The double nearest to the quotient of two integers. It is infinite when the quotient is out of
range, and a zero carries the sign that the two signs give. -/
def nearest (numerator denominator : Int) : Float :=
  let negative := (numerator < 0) != (denominator < 0)
  Float.ofBits (UInt64.ofNat
    (nearestBits negative numerator.natAbs denominator.natAbs))

/-- No double has a leading decimal digit beyond this exponent, in either direction. -/
def decimalRange : Int := 400

/-- The double nearest to `digits * 10 ^ exponent`, with a sign. A decimal that is out of range by
its leading digit is not written out. -/
def nearestDecimal (negative : Bool) (digits : Nat) (exponent : Int) : Float :=
  let sign : Int := if negative then -1 else 1
  let leading := (Rounding.digitCount digits : Int) + exponent
  if digits = 0 || leading < -decimalRange then
    nearest 0 sign
  else if decimalRange < leading then
    nearest (sign * powerOfTen decimalRange.toNat) 1
  else if 0 ≤ exponent then
    nearest (sign * (digits * powerOfTen exponent.toNat : Nat)) 1
  else
    nearest (sign * digits) (powerOfTen (-exponent).toNat)

/-- The whole part of a double, rounded toward zero. -/
def whole? : Double → Option Int
  | .finite negative mantissa exponent =>
    let magnitude :=
      if 0 ≤ exponent then mantissa * powerOfTwo exponent.toNat
      else mantissa / powerOfTwo (-exponent).toNat
    some (if negative then -(magnitude : Int) else magnitude)
  | _ => none

/-- The binary logarithm of a positive whole number of any size. A number out of range is scaled
into the interval from one half to one, and the number of its bits is added. -/
def log2Nat (n : Nat) : Float :=
  let x := nearest n 1
  if x.isInf then
    let bits := n.log2 + 1
    Float.log2 (nearest n (powerOfTwo bits)) + nearest bits 1
  else
    Float.log2 x

end Double

end SourceMetrics
