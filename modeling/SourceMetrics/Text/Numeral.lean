import SourceMetrics.Real.Arithmetic
import SourceMetrics.Text.Blank
import SourceMetrics.Text.Digit

/-!
# Numbers written as text

An integer is a sign and digits of any script; a fraction number may also have a point and an
exponent, or be one of the words for the values that are no ordinary numbers. Blanks around a number
do not count, and a single underscore may stand between two digits.
-/

namespace SourceMetrics.Numeral

/-- Why a text is refused as an integer. -/
inductive Refusal where
  | malformed
  /-- It has more digits than are read. -/
  | tooLong (digits : Nat)
deriving DecidableEq, Repr

/-- Integers with more decimal digits than this are not read, and not written either. -/
def digitLimit : Nat := 4300

/-- Whether a character is a blank beside a number. The information separators are not. -/
def isMargin (c : Char) : Bool :=
  Text.isBlank c && !Text.isSeparator c

/-- Whether a character is a decimal digit of some script. -/
def isDigit (c : Char) : Bool :=
  (Text.digit? c).isSome

/-- A sign at the start, if there is one: whether it is negative, and the characters after it. -/
def splitSign : List Char → Bool × List Char
  | '+' :: rest => (false, rest)
  | '-' :: rest => (true, rest)
  | cs => (false, cs)

/-- The value of a row of digits. -/
def digitsValue (digits : List Char) : Nat :=
  (Text.readDigits 10 Text.digit? digits).getD 0

/-- The magnitude of an integer. A row of digits that is too long is refused for that, whatever
follows it. -/
def magnitude (cs : List Char) : Except Refusal Nat :=
  let run := cs.takeWhile fun c => isDigit c || c = '_'
  match Text.joinGroups isDigit run with
  | none => .error .malformed
  | some digits =>
    if digits.isEmpty then .error .malformed
    else if digitLimit < digits.length then .error (.tooLong digits.length)
    else if run.length < cs.length then .error .malformed
    else .ok (digitsValue digits)

/-- The integer that characters say, without the blanks around them. -/
def integer (margin : Char → Bool) (cs : List Char) : Except Refusal Int :=
  let (negative, rest) := splitSign (Text.strip margin cs)
  (magnitude rest).map fun n => if negative then -(n : Int) else n

variable {R : Type} [Arithmetic R]

/-- The exponent that characters say, zero if there are none. -/
def exponent? (cs : List Char) : Option Int :=
  match cs with
  | [] => some 0
  | mark :: rest =>
    let (negative, digits) := splitSign rest
    if (mark = 'e' || mark = 'E') && !digits.isEmpty && digits.all isDigit then
      some (if negative then -(digitsValue digits : Int) else digitsValue digits)
    else none

/-- The fraction digits after a point, if there is one, and what follows them. -/
def splitFraction : List Char → List Char × List Char
  | '.' :: rest => rest.span isDigit
  | cs => ([], cs)

/-- The number that digits with a point or an exponent say. There has to be a digit before or after
the point. -/
def decimal? (negative : Bool) (cs : List Char) : Option R :=
  let (whole, afterWhole) := cs.span isDigit
  let (fraction, afterFraction) := splitFraction afterWhole
  if whole.isEmpty && fraction.isEmpty then none
  else
    (exponent? afterFraction).map fun exponent =>
      Arithmetic.decimal negative (digitsValue (whole ++ fraction)) (exponent - fraction.length)

/-- The number that characters say, without the blanks around them. -/
def real? (margin : Char → Bool) (cs : List Char) : Option R :=
  match Text.joinGroups isDigit (Text.strip margin cs) with
  | none => none
  | some joined =>
    let (negative, rest) := splitSign joined
    let word := String.ofList (rest.map Char.toLower)
    if word = "inf" || word = "infinity" then
      some (if negative then Arithmetic.negInfinite else Arithmetic.infinite)
    else if word = "nan" then some Arithmetic.nan
    else decimal? negative rest

end SourceMetrics.Numeral
