import SourceMetrics.Fault

/-!
# Texts and bytes that stand for numbers

A text or a row of bytes is read as an integer or as a number of the model. What cannot be read is
refused with its written form. In a row of bytes only the basic digits and blanks count.
-/

namespace SourceMetrics.Numeral

/-- Whether a character of a row of bytes is a blank beside a number. -/
def isBasicMargin (c : Char) : Bool :=
  c.toNat = 32 || (9 ≤ c.toNat && c.toNat ≤ 13)

/-- The characters of a row of bytes. -/
def ofBytes (bytes : List UInt8) : List Char :=
  bytes.map fun byte => Char.ofNat byte.toNat

/-- At most so many characters of a text are shown when it is refused as an integer. -/
def shownLength : Nat := 200

/-- The fault of a text that is refused as an integer, by its written form. -/
def fault (written : String) : Refusal → Fault
  | .malformed => .notInteger (String.ofList (written.toList.take shownLength))
  | .tooLong digits => .tooManyDigits digits

/-- The integer that a text says. -/
def integerOfText (s : String) : Except Fault Int :=
  (integer isMargin s.toList).mapError (fault (Text.quoted s))

/-- The integer that a row of bytes says. -/
def integerOfBytes (bytes : List UInt8) : Except Fault Int :=
  (integer isBasicMargin (ofBytes bytes)).mapError (fault (Text.quotedBytes bytes))

variable {R : Type} [Arithmetic R]

/-- The number that a text says. -/
def realOfText (s : String) : Except Fault R :=
  match real? isMargin s.toList with
  | some x => .ok x
  | none => .error (.notReal (Text.quoted s))

/-- The number that a row of bytes says. -/
def realOfBytes (bytes : List UInt8) : Except Fault R :=
  match real? isBasicMargin (ofBytes bytes) with
  | some x => .ok x
  | none => .error (.notReal (Text.quotedBytes bytes))

end SourceMetrics.Numeral
