import SourceMetrics.Text.Numeral
import SourceMetrics.Toml.Basic
import SourceMetrics.Value.Basic

/-!
# Configuration text in TOML: numbers

Integers come in four bases and floats with a fraction part, an exponent or both. Digits may be
grouped by single underscores. A float is the nearest number of the model. A decimal integer of too
many digits is refused.
-/

namespace SourceMetrics.Toml

variable {R : Type}

/-- Digits of a base in groups with single underscores between them, from the start of the
characters; no digits if there are none. -/
def groups (base : Nat) : List Char → List Char × List Char
  | [] => ([], [])
  | [c] => if (digitBelow? base c).isSome then ([c], []) else ([], [c])
  | c :: d :: rest =>
    if (digitBelow? base c).isNone then ([], c :: d :: rest)
    else if d = '_' then
      let (digits, last) := groups base rest
      if digits.isEmpty then ([c], d :: rest) else (c :: digits, last)
    else
      let (digits, last) := groups base (d :: rest)
      (c :: digits, last)

/-- Digits in groups, of which there has to be one. -/
def readGroups (base : Nat) (cs : List Char) : Option (List Char × List Char) :=
  let (digits, last) := groups base cs
  if digits.isEmpty then none else some (digits, last)

/-- The value of digits in a base. -/
def digitsValue (base : Nat) (digits : List Char) : Nat :=
  (Text.readDigits base hexDigit? digits).getD 0

/-- The fraction digits after a point, if there are any. -/
def readFraction (cs : List Char) : List Char × List Char :=
  match cs with
  | '.' :: rest =>
    match readGroups 10 rest with
    | some (digits, last) => (digits, last)
    | none => ([], cs)
  | _ => ([], cs)

/-- An exponent, if there is one. -/
def readExponent (cs : List Char) : Option (Int × List Char) :=
  match cs with
  | c :: rest =>
    if c = 'e' || c = 'E' then
      match rest with
      | '-' :: more =>
        (readGroups 10 more).map fun r => (Int.negOfNat (digitsValue 10 r.1), r.2)
      | '+' :: more => (readGroups 10 more).map fun r => (Int.ofNat (digitsValue 10 r.1), r.2)
      | _ => (readGroups 10 rest).map fun r => (Int.ofNat (digitsValue 10 r.1), r.2)
    else none
  | [] => none

/-- A decimal integer or float after its sign. -/
def readDecimal [Arithmetic R] (negative : Bool) (cs : List Char) :
    Except Refusal (Value R × List Char) :=
  let whole :=
    match cs with
    | '0' :: rest => some (['0'], rest)
    | _ => readGroups 10 cs
  match whole with
  | none => .error .invalidValue
  | some (digits, rest) =>
    let (fraction, afterFraction) := readFraction rest
    match readExponent afterFraction with
    | some (exponent, last) =>
      .ok (.real (Arithmetic.decimal negative (digitsValue 10 (digits ++ fraction))
        (exponent - fraction.length)), last)
    | none =>
      if fraction.isEmpty then
        let n := digitsValue 10 digits
        if Numeral.digitLimit < digits.length then .error .invalidValue
        else .ok (.int (if negative then -(n : Int) else n), rest)
      else
        .ok (.real (Arithmetic.decimal negative (digitsValue 10 (digits ++ fraction))
          (-(fraction.length : Int))), afterFraction)

/-- A number, or one of the words for the values that are no ordinary numbers. -/
def readNumber [Arithmetic R] (cs : List Char) : Except Refusal (Value R × List Char) :=
  match cs with
  | '0' :: 'x' :: rest => based 16 rest
  | '0' :: 'o' :: rest => based 8 rest
  | '0' :: 'b' :: rest => based 2 rest
  | 'i' :: 'n' :: 'f' :: rest => .ok (.real Arithmetic.infinite, rest)
  | '+' :: 'i' :: 'n' :: 'f' :: rest => .ok (.real Arithmetic.infinite, rest)
  | '-' :: 'i' :: 'n' :: 'f' :: rest => .ok (.real Arithmetic.negInfinite, rest)
  | 'n' :: 'a' :: 'n' :: rest => .ok (.real Arithmetic.nan, rest)
  | '+' :: 'n' :: 'a' :: 'n' :: rest => .ok (.real Arithmetic.nan, rest)
  | '-' :: 'n' :: 'a' :: 'n' :: rest => .ok (.real Arithmetic.nan, rest)
  | '+' :: rest => readDecimal false rest
  | '-' :: rest => readDecimal true rest
  | _ => readDecimal false cs
where
  /-- An integer in a base other than ten, after its mark. -/
  based (base : Nat) (rest : List Char) : Except Refusal (Value R × List Char) :=
    match readGroups base rest with
    | some (digits, last) => .ok (.int (digitsValue base digits), last)
    | none => .error .invalidValue

end SourceMetrics.Toml
