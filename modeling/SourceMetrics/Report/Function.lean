import SourceMetrics.Halstead.Measures

/-!
# Function reports

The report of one function scope, and also of a module taken as a whole. Counters hold any value
that a caller gave them, since the amounts come from syntax rules; only numbers can be added.
-/

namespace SourceMetrics

/-- The metrics of one scope. An absent value stands for what is not known. -/
structure FunctionReport (R : Type) where
  name : Value R := .null
  /-- The line on which the scope starts. -/
  line : Value R := .null
  /-- Logical lines, as the syntax rules count them. -/
  logical : Value R := .int 0
  /-- The number of lines from the first to the last. -/
  physical : Value R := .null
  /-- One more than the number of branches. -/
  cyclomatic : Value R := .int 1
  halstead : Halstead R
  params : Value R := .int 0
  /-- Branches in a hundred logical lines. -/
  density : Value R := .null

namespace FunctionReport

variable {R : Type} [Arithmetic R]

/-- The report of a scope of which nothing is known. -/
def empty : FunctionReport R :=
  { halstead := Halstead.empty }

/-- Entries whose value is known. -/
def known (entries : List (String × Value R)) : Entries (Value R) :=
  entries.filter fun entry => !entry.2.isNull

/-- A function report as it is reported. -/
def toValue (f : FunctionReport R) : Value R :=
  .dict
    ([("name", f.name)]
      ++ known [("line", f.line)]
      ++ [("sloc", .dict ([("logical", f.logical)] ++ known [("physical", f.physical)])),
          ("cyclomatic", f.cyclomatic),
          ("halstead", f.halstead.toValue),
          ("params", f.params)]
      ++ known [("cyclomaticDensity", f.density)])

end FunctionReport

end SourceMetrics
