import SourceMetrics.Failure
import SourceMetrics.Value.Number

/-!
# Densities and the maintainability index

The maintainability index of a module is

`171 - 3.42 ln E - 0.23 ln C - 16.2 ln L`

for the averages of effort `E`, cyclomatic complexity `C` and logical lines `L` over its functions.
It is capped at 171, and it can be rescaled to the range from 0 to 100.
-/

namespace SourceMetrics.Maintainability

variable {R : Type} [Arithmetic R]

/-- The natural logarithm, extended: negative infinity at zero, and no number for a negative
argument and for no number. -/
def ln (value : Value R) : Except Fault R :=
  match value.number? with
  | none => .error (.unordered value.typeName "int")
  | some (.int i) =>
    if i = 0 then .ok Arithmetic.negInfinite
    else if i < 0 then .ok Arithmetic.nan
    else (Number.toReal (.int i)).map Arithmetic.log
  | some (.real x) =>
    if Arithmetic.isZero x then .ok Arithmetic.negInfinite
    else if Arithmetic.less x Arithmetic.zero || Arithmetic.isNaN x then .ok Arithmetic.nan
    else .ok (Arithmetic.log x)

/-- The greatest maintainability index. -/
def ceiling : R :=
  Arithmetic.ofInt 171

/-- A maintainability index, not above the ceiling. -/
def cap (x : R) : R :=
  if Arithmetic.less ceiling x then ceiling else x

/-- A maintainability index on the scale from 0 to 100. What is not above zero becomes zero. -/
def rescale (x : R) : R :=
  let scaled := Arithmetic.div (Arithmetic.mul x (Arithmetic.ofInt 100)) ceiling
  if Arithmetic.less Arithmetic.zero scaled then scaled else Arithmetic.zero

/-- The index from the logarithms of effort, cyclomatic complexity and logical lines. -/
def formula (effort cyclomatic loc : R) : R :=
  Arithmetic.sub
    (Arithmetic.sub
      (Arithmetic.sub ceiling (Arithmetic.mul (Arithmetic.fraction 342 100) effort))
      (Arithmetic.mul (Arithmetic.fraction 23 100) cyclomatic))
    (Arithmetic.mul (Arithmetic.fraction 162 10) loc)

/-- The maintainability index for averages. An average cyclomatic complexity of zero is refused,
since every function has at least one path. -/
def index (effort cyclomatic loc : Value R) (rescaled : Bool) : Except (Failure R) R := do
  if cyclomatic.isZero then
    throw (Failure.diagnostic
      (.invariantViolation (.text "encountered function with cyclomatic complexity zero")))
  let lnEffort ← ln effort
  let lnCyclomatic ← ln cyclomatic
  let lnLoc ← ln loc
  let capped := cap (formula lnEffort lnCyclomatic lnLoc)
  return if rescaled then rescale capped else capped

/-- Branches in a hundred logical lines. Without logical lines it is infinite with the sign of the
branches, and no number if there are no branches either. -/
def density (cyclomatic logical : Value R) : Except Fault R := do
  if logical.isZero then
    if cyclomatic.isZero then
      return Arithmetic.nan
    let branches ← cyclomatic.toReal
    return if Arithmetic.isNegative branches then Arithmetic.negInfinite else Arithmetic.infinite
  let share ← cyclomatic.dividedBy logical
  return Arithmetic.mul share (Arithmetic.ofInt 100)

end SourceMetrics.Maintainability
