import SourceMetrics.Report.Module

/-!
# Project reports

The report of a project: its module reports and a summary of their structure and averages. The
summary is optional entry by entry, since a project can be analysed without it.
-/

namespace SourceMetrics

/-- What is said of a project as a whole, with matrices in `M` and scores in `S`. -/
structure Summary (M S : Type) where
  adjacency : Option M := none
  /-- The share of module pairs with a direct dependency, in percent. -/
  firstOrderDensity : Option S := none
  visibility : Option M := none
  /-- The share of module pairs with a direct or indirect dependency, in percent. -/
  changeCost : Option S := none
  coreSize : Option S := none
  loc : Option S := none
  cyclomatic : Option S := none
  effort : Option S := none
  params : Option S := none
  maintainability : Option S := none

/-- A matrix of zeros and ones, as a list of rows. -/
abbrev BitMatrix := List (List Nat)

/-- The report of a project. -/
structure ProjectReport (R : Type) where
  reports : List (ModuleReport R) := []
  summary : Summary BitMatrix R := {}

namespace Summary

variable {M S M' S' : Type}

/-- Change the form of matrices and scores. -/
def map (matrix : M → M') (score : S → S') (s : Summary M S) : Summary M' S' where
  adjacency := s.adjacency.map matrix
  firstOrderDensity := s.firstOrderDensity.map score
  visibility := s.visibility.map matrix
  changeCost := s.changeCost.map score
  coreSize := s.coreSize.map score
  loc := s.loc.map score
  cyclomatic := s.cyclomatic.map score
  effort := s.effort.map score
  params := s.params.map score
  maintainability := s.maintainability.map score

/-- The entries of a summary that are there, by the names under which they are reported. -/
def entries {V : Type} (s : Summary V V) : Entries V :=
  [("adjacencyMatrix", s.adjacency),
   ("firstOrderDensity", s.firstOrderDensity),
   ("visibilityMatrix", s.visibility),
   ("changeCost", s.changeCost),
   ("coreSize", s.coreSize),
   ("loc", s.loc),
   ("cyclomatic", s.cyclomatic),
   ("effort", s.effort),
   ("params", s.params),
   ("maintainability", s.maintainability)].filterMap
    fun entry => entry.2.map fun value => (entry.1, value)

end Summary

namespace BitMatrix

/-- A matrix as it is reported. -/
def toValue {R : Type} (m : BitMatrix) : Value R :=
  .list (m.map fun row => .list (row.map fun (entry : Nat) => .int entry))

end BitMatrix

namespace ProjectReport

variable {R : Type} [Arithmetic R]

/-- A project report as it is reported, from its reported parts. -/
def assemble (reports : List (Value R)) (summary : Summary (Value R) (Value R)) : Value R :=
  .dict (("reports", .list reports) :: summary.entries)

/-- A project report as it is reported. -/
def toValue (p : ProjectReport R) : Value R :=
  assemble (p.reports.map ModuleReport.toValue) (p.summary.map BitMatrix.toValue Value.real)

end ProjectReport

end SourceMetrics
