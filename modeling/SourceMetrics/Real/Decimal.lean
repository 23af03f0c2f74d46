import SourceMetrics.Real.Double

/-!
# Decimal text of doubles

A double is written with the fewest digits that read back as the same double. Which digits those
are (`Decimal.shortest`) is a matter of exact arithmetic on the interval of reals that round to the
double; how they are laid out (`Layout`) is a matter of format, gathered in one record.
-/

namespace SourceMetrics

/-- A positive decimal `digits * 10 ^ exponent`. -/
structure Decimal where
  digits : Nat
  exponent : Int
deriving DecidableEq, Repr

namespace Decimal

/-- Compare a decimal with `numerator / denominator`. -/
private def compareWith (d : Decimal) (numerator denominator : Nat) : Ordering :=
  if 0 ≤ d.exponent then
    compare (d.digits * powerOfTen d.exponent.toNat * denominator) numerator
  else
    compare (d.digits * denominator) (numerator * powerOfTen (-d.exponent).toNat)

/-- The reals that round to a double, as an interval around it. Its ends belong to it exactly when
the mantissa is even, since a tie goes to the even mantissa. -/
structure Interval where
  lower : Nat
  middle : Nat
  upper : Nat
  denominator : Nat
  closed : Bool

/-- The interval of the double `mantissa * 2 ^ exponent`. Below a power of two the doubles are twice
as dense, so there the lower half is half as wide. -/
def Interval.around (mantissa : Nat) (exponent : Int) : Interval :=
  let narrow := mantissa = Double.leastNormal ∧ Double.leastExponent < exponent
  let below := 4 * mantissa - (if narrow then 1 else 2)
  let quarter := exponent - 2
  let scale := if 0 ≤ quarter then powerOfTwo quarter.toNat else 1
  { lower := below * scale
    middle := 4 * mantissa * scale
    upper := (4 * mantissa + 2) * scale
    denominator := if 0 ≤ quarter then 1 else powerOfTwo (-quarter).toNat
    closed := mantissa % 2 = 0 }

/-- Whether a decimal reads back as the double of the interval. -/
def Interval.holds (i : Interval) (d : Decimal) : Bool :=
  let low := d.compareWith i.lower i.denominator
  let high := d.compareWith i.upper i.denominator
  if i.closed then low != .lt && high != .gt else low == .gt && high == .lt

/-- The two neighbours of the interval's middle on the grid of step `10 ^ exponent`, the lower one
first. -/
private def neighbours (i : Interval) (exponent : Int) : Decimal × Decimal :=
  let below :=
    if 0 ≤ exponent then i.middle / (i.denominator * powerOfTen exponent.toNat)
    else i.middle * powerOfTen (-exponent).toNat / i.denominator
  (⟨below, exponent⟩, ⟨below + 1, exponent⟩)

/-- Which of two neighbours is nearer to the middle: the sign of twice the middle minus their sum.
A tie goes to the even one. -/
private def nearer (i : Interval) (pair : Decimal × Decimal) : Decimal :=
  let doubled : Decimal := ⟨pair.1.digits + pair.2.digits, pair.1.exponent⟩
  match doubled.compareWith (2 * i.middle) i.denominator with
  | .lt => pair.2
  | .gt => pair.1
  | .eq => if pair.1.digits % 2 = 0 then pair.1 else pair.2

/-- Search the grids from coarse to fine for a decimal of the interval. -/
private def search (i : Interval) (exponent : Int) : Nat → Decimal
  | 0 => nearer i (neighbours i exponent)
  | fuel + 1 =>
    let pair := neighbours i exponent
    match i.holds pair.1, i.holds pair.2 with
    | true, true => nearer i pair
    | true, false => pair.1
    | false, true => pair.2
    | false, false => search i (exponent - 1) fuel

/-- The decimal with the fewest digits that reads back as the positive double
`mantissa * 2 ^ exponent`; of several such decimals the one nearest to it. Seventeen digits always
suffice. -/
def shortest (mantissa : Nat) (exponent : Int) : Decimal :=
  let i := Interval.around mantissa exponent
  search i (Rounding.leadingExponent i.middle i.denominator) 16

/-- Drop the zeros at the end of the digits. -/
private def trimmed (d : Decimal) : Nat → Decimal
  | 0 => d
  | fuel + 1 =>
    if d.digits ≠ 0 ∧ d.digits % 10 = 0 then trimmed ⟨d.digits / 10, d.exponent + 1⟩ fuel else d

/-- The same decimal with no zero at the end of its digits. -/
def trim (d : Decimal) : Decimal :=
  trimmed d (Rounding.digitCount d.digits)

end Decimal

/-- How a decimal is laid out. -/
structure Layout where
  /-- Positional notation starts at this exponent of the leading digit. -/
  leastPositional : Int
  /-- Positional notation ends at this exponent of the leading digit. -/
  greatestPositional : Int
  /-- The least number of digits of a written exponent. -/
  exponentWidth : Nat
  nan : String
  infinite : String

namespace Layout

/-- The layout of every number that the library writes: positional from `0.0001` up to sixteen
digits before the point, a point in every positional number, and otherwise an exponent with a sign
and at least two digits. -/
def standard : Layout where
  leastPositional := -4
  greatestPositional := 15
  exponentWidth := 2
  nan := "nan"
  infinite := "inf"

private def zeros (n : Nat) : String :=
  String.ofList (List.replicate n '0')

/-- Lay out a positive decimal. -/
def decimal (layout : Layout) (d : Decimal) : String :=
  let digits := toString d.digits
  let count : Int := digits.length
  let leading := count + d.exponent - 1
  if layout.leastPositional ≤ leading ∧ leading ≤ layout.greatestPositional then
    if leading < 0 then
      "0." ++ zeros (-leading - 1).toNat ++ digits
    else if 0 ≤ d.exponent then
      digits ++ zeros d.exponent.toNat ++ ".0"
    else
      let before := (leading + 1).toNat
      String.ofList (digits.toList.take before) ++ "." ++ String.ofList (digits.toList.drop before)
  else
    let rest := String.ofList (digits.toList.drop 1)
    let significand :=
      String.ofList (digits.toList.take 1) ++ (if rest.isEmpty then "" else "." ++ rest)
    let magnitude := toString leading.natAbs
    let padding := zeros (layout.exponentWidth - magnitude.length)
    significand ++ "e" ++ (if leading < 0 then "-" else "+") ++ padding ++ magnitude

/-- The written form of a double. -/
def write (layout : Layout) (x : Float) : String :=
  match Double.ofFloat x with
  | .nan => layout.nan
  | .infinite negative => (if negative then "-" else "") ++ layout.infinite
  | .finite negative mantissa exponent =>
    let sign := if negative then "-" else ""
    if mantissa = 0 then sign ++ "0.0"
    else sign ++ layout.decimal (Decimal.shortest mantissa exponent).trim

/-- The written form of a double with a given number of decimal places. The exact value is rounded,
and a half goes to the even neighbour. -/
def writeFixed (layout : Layout) (places : Nat) (x : Float) : String :=
  match Double.ofFloat x with
  | .nan => layout.nan
  | .infinite negative => (if negative then "-" else "") ++ layout.infinite
  | .finite negative mantissa exponent =>
    let scaled := mantissa * powerOfTen places
    let units :=
      if 0 ≤ exponent then scaled * powerOfTwo exponent.toNat
      else Rounding.nearest scaled (powerOfTwo (-exponent).toNat)
    let tail := toString (units % powerOfTen places)
    (if negative then "-" else "") ++ toString (units / powerOfTen places) ++ "."
      ++ zeros (places - tail.length) ++ tail

end Layout

end SourceMetrics
