import SourceMetrics.Module.Maintainability
import SourceMetrics.Report.Module

/-!
# Deriving a module's figures

After a traversal the counters of a module report are complete, and everything else follows from
them: the density and the Halstead measures of each function and of the module as a whole, then the
averages over the functions and the maintainability index. A module without functions is its own
only sample. Values that were derived before are overwritten.
-/

namespace SourceMetrics

/-- Sums of the figures that are averaged. -/
structure Totals (R : Type) where
  loc : R
  cyclomatic : R
  effort : R
  params : R

namespace Totals

variable {R : Type} [Arithmetic R]

/-- Sums over nothing. -/
def zero : Totals R :=
  ⟨Arithmetic.zero, Arithmetic.zero, Arithmetic.zero, Arithmetic.zero⟩

/-- Add a value to a sum. -/
def add (sum : R) (value : Value R) : Except Fault R :=
  match value.number? with
  | some n => n.toReal.map (Arithmetic.add sum)
  | none => .error (.operands "+=" "float" value.typeName)

/-- Add the figures of a function. -/
def addFunction (t : Totals R) (f : FunctionReport R) : Except Fault (Totals R) := do
  let loc ← add t.loc f.logical
  let cyclomatic ← add t.cyclomatic f.cyclomatic
  let effort := Arithmetic.add t.effort f.halstead.measures.effort
  let params ← add t.params f.params
  return { loc, cyclomatic, effort, params }

/-- The averages over a number of functions. -/
def average (t : Totals R) (count : Nat) : Totals R :=
  let divisor := Arithmetic.ofInt count
  { loc := Arithmetic.div t.loc divisor
    cyclomatic := Arithmetic.div t.cyclomatic divisor
    effort := Arithmetic.div t.effort divisor
    params := Arithmetic.div t.params divisor }

end Totals

namespace FunctionReport

variable {R : Type} [Arithmetic R]

/-- Derive the density and the Halstead measures of a function. -/
def derive (f : FunctionReport R) : Except Fault (FunctionReport R) := do
  let density ← Maintainability.density f.cyclomatic f.logical
  let halstead ← f.halstead.derive
  return { f with density := .real density, halstead }

/-- Derive functions one after another, and sum their figures up. -/
def deriveAll : List (FunctionReport R) → Totals R →
    Except Fault (List (FunctionReport R) × Totals R)
  | [], sums => .ok ([], sums)
  | f :: rest, sums => do
    let derived ← f.derive
    let sums ← sums.addFunction derived
    let (others, sums) ← deriveAll rest sums
    return (derived :: others, sums)

end FunctionReport

namespace ModuleReport

variable {R : Type} [Arithmetic R]

/-- Derive all figures of a module from its counters. -/
def derive (m : ModuleReport R) (rescaled : Bool) : Except (Failure R) (ModuleReport R) := do
  let (functions, sums) ← FunctionReport.deriveAll m.functions Totals.zero
  let aggregate ← m.aggregate.derive
  let sums ← if functions.isEmpty then sums.addFunction aggregate else pure sums
  let averages := sums.average (max functions.length 1)
  let maintainability ←
    Maintainability.index (.real averages.effort) (.real averages.cyclomatic) (.real averages.loc)
      rescaled
  return {
    m with
    aggregate
    functions
    maintainability := .real maintainability
    loc := .real averages.loc
    cyclomatic := .real averages.cyclomatic
    effort := .real averages.effort
    params := .real averages.params }

end ModuleReport

end SourceMetrics
