import SourceMetrics.Halstead.Tally

/-!
# Halstead's measures

From the tallies of operators and operands, with `n₁` and `n₂` distinct ones and `N₁` and `N₂`
occurrences:

* the length is `N₁ + N₂` and the vocabulary `n₁ + n₂`,
* the difficulty is `n₁ / 2` times `N₂ / n₂`, the second factor being one without operands,
* the volume is the length times the binary logarithm of the vocabulary,
* the effort is difficulty times volume, the estimated bugs are the volume over 3000 and the time is
  the effort over 18.

Without any occurrence all of them are zero.
-/

namespace SourceMetrics

/-- The measures derived from two tallies. -/
structure Measures (R : Type) where
  length : Value R
  vocabulary : Value R
  difficulty : R
  volume : R
  effort : R
  bugs : R
  time : R

/-- The tallies of a function and the measures derived from them. -/
structure Halstead (R : Type) where
  operators : Tally R := {}
  operands : Tally R := {}
  measures : Measures R

namespace Measures

variable {R : Type} [Arithmetic R]

/-- The measures of a function without tokens, which has a given length of zero. -/
def none (length : Value R) : Measures R :=
  { length
    vocabulary := .int 0
    difficulty := Arithmetic.zero
    volume := Arithmetic.zero
    effort := Arithmetic.zero
    bugs := Arithmetic.zero
    time := Arithmetic.zero }

/-- The binary logarithm of a positive value. -/
def binaryLog (value : Value R) : Except Fault R :=
  match value.number? with
  | some (.int i) => if 0 < i then .ok (Arithmetic.log2Nat i.toNat) else .error .logarithm
  | some (.real x) =>
    if Arithmetic.less Arithmetic.zero x || Arithmetic.isNaN x then .ok (Arithmetic.log2 x)
    else .error .logarithm
  | .none => .error (.notNumber value.typeName)

/-- The measures of two tallies. -/
def derive (operators operands : Tally R) : Except Fault (Measures R) := do
  let length ← operators.total.plus operands.total
  if length.isZero then
    return none length
  let vocabulary ← operators.distinct.plus operands.distinct
  let half ← operators.distinct.dividedBy (.int 2)
  let ratio ←
    if operands.distinct.isZero then pure Arithmetic.one
    else operands.total.dividedBy operands.distinct
  let difficulty := Arithmetic.mul half ratio
  let bits ← binaryLog vocabulary
  let factor ← length.toReal
  let volume := Arithmetic.mul factor bits
  let effort := Arithmetic.mul difficulty volume
  return {
    length
    vocabulary
    difficulty
    volume
    effort
    bugs := Arithmetic.div volume (Arithmetic.ofInt 3000)
    time := Arithmetic.div effort (Arithmetic.ofInt 18) }

end Measures

namespace Halstead

variable {R : Type} [Arithmetic R]

/-- No tokens seen yet. -/
def empty : Halstead R :=
  { measures := Measures.none (.int 0) }

/-- The tally of a class. -/
def tally (h : Halstead R) : TokenClass → Tally R
  | .operators => h.operators
  | .operands => h.operands

/-- Replace the tally of a class. -/
def setTally (h : Halstead R) (c : TokenClass) (t : Tally R) : Halstead R :=
  match c with
  | .operators => { h with operators := t }
  | .operands => { h with operands := t }

/-- Count an occurrence of a token of a class. -/
def record (h : Halstead R) (c : TokenClass) (token : Value R) : Except Fault (Halstead R) := do
  let t ← (h.tally c).record token
  return h.setTally c t

/-- Derive the measures from the tallies, whatever they were before. -/
def derive (h : Halstead R) : Except Fault (Halstead R) := do
  let measures ← Measures.derive h.operators h.operands
  return { h with measures }

/-- The tallies and measures as they are reported. -/
def toValue (h : Halstead R) : Value R :=
  .dict
    [("operators", h.operators.toValue),
     ("operands", h.operands.toValue),
     ("length", h.measures.length),
     ("vocabulary", h.measures.vocabulary),
     ("difficulty", .real h.measures.difficulty),
     ("volume", .real h.measures.volume),
     ("effort", .real h.measures.effort),
     ("bugs", .real h.measures.bugs),
     ("time", .real h.measures.time)]

end Halstead

end SourceMetrics
