import SourceMetrics.Graph.Adjacency
import SourceMetrics.Graph.Closure
import SourceMetrics.Module.Derivation
import SourceMetrics.Report.Record

/-!
# The figures of a project

From the reports of its modules follow a project's adjacency matrix, its structure scores and the
averages over the modules. The reports are put in the order of their paths first, so nothing depends
on the order in which they are given.
-/

namespace SourceMetrics

/-- What a caller gives as a project report. -/
inductive ReportSource (R : Type) where
  /-- Module reports; an item that is no module report is not there. -/
  | reports (items : List (Option (ModuleReport R)))
  /-- A report without a list of module reports. -/
  | noReports
  /-- A value of another type. -/
  | other (typeName : String)

namespace ReportSource

variable {R : Type}

/-- Whether a value is a module report with a path. -/
def isReport (value : Value R) : Bool :=
  match value with
  | .record .moduleReport fields =>
    match fields.lookup "path" with
    | some (.text _) => true
    | _ => false
  | _ => false

/-- The module reports among the items of a list. Where each item is one, their dependencies have to
be there. -/
def ofItems [Arithmetic R] (items : List (Value R)) : Except Fault (ReportSource R) :=
  if items.all isReport then do
    let reports ← items.mapM ModuleReport.ofRecord
    return .reports (reports.map some)
  else
    .ok (.reports (items.map fun item =>
      if isReport item then (ModuleReport.ofRecord item).toOption else none))

/-- The source that a value is: a project report, or a mapping with a list of module reports. -/
def ofValue [Arithmetic R] (value : Value R) : Except Fault (ReportSource R) :=
  match value with
  | .record .projectReport _ | .dict _ =>
    match (value.field "reports").items? with
    | some items => ofItems items
    | none => .ok .noReports
  | _ => .ok (.other value.typeName)

/-- An item, which has to be a module report with a path. -/
def requireReport : Option (ModuleReport R) → Except (Failure R) (ModuleReport R)
  | some m =>
    if m.hasPath then .ok m
    else .error (.invalidInput "Invalid module report: expected ModuleReport with a path")
  | none =>
    .error (.invalidInput "Invalid module report: expected ModuleReport with a path")

/-- The module reports of a source, if all of its items are module reports with paths. -/
def read : ReportSource R → Except (Failure R) (List (ModuleReport R))
  | .reports items => items.mapM requireReport
  | .noReports => .error (.invalidInput "Invalid reports")
  | .other typeName =>
    .error (.invalidInput "Invalid project report" [("report_type", typeName)])

end ReportSource

namespace ProjectReport

variable {R : Type} [Arithmetic R]

/-- The average of a figure over modules. -/
def average (figure : ModuleReport R → Value R) (reports : List (ModuleReport R)) :
    Except Fault R := do
  let sum ← reports.foldlM (fun sum m => Totals.add sum (figure m)) Arithmetic.zero
  return Arithmetic.div sum (Arithmetic.ofInt (max reports.length 1 : Nat))

/-- Add the averages over modules to a summary. -/
def addAverages (reports : List (ModuleReport R)) (summary : Summary BitMatrix R) :
    Except Fault (Summary BitMatrix R) := do
  let loc ← average ModuleReport.loc reports
  let cyclomatic ← average ModuleReport.cyclomatic reports
  let effort ← average ModuleReport.effort reports
  let params ← average ModuleReport.params reports
  let maintainability ← average ModuleReport.maintainability reports
  return {
    summary with
    loc := some loc
    cyclomatic := some cyclomatic
    effort := some effort
    params := some params
    maintainability := some maintainability }

/-- Add the structure scores to a summary, unless they are left out. -/
def addClosure (noCoreSize : Bool) (matrix : BitMatrix) (density : R)
    (summary : Summary BitMatrix R) : Logged R (Summary BitMatrix R) :=
  if noCoreSize then pure summary
  else do
    let c ← Graph.closeAndScore (Graph.toEdges matrix) (.real density)
    return {
      summary with
      visibility := some c.visibility
      changeCost := some c.changeCost
      coreSize := some c.coreSize }

/-- The project report of modules in the order of their paths. -/
def ofSorted (working : String) (reports : List (ModuleReport R)) (noCoreSize : Bool) :
    Logged R (ProjectReport R) := do
  let (matrix, density) ← Graph.buildAdjacency working reports
  let summary ← addClosure noCoreSize matrix density
    { adjacency := some matrix, firstOrderDensity := some density }
  let summary ← Logged.ofExcept (addAverages reports summary)
  return { reports, summary }

/-- The project report of modules that all have paths. -/
def ofReports (working : String) (reports : List (ModuleReport R)) (noCoreSize : Bool) :
    Logged R (ProjectReport R) :=
  ofSorted working (ModuleReport.sorted reports) noCoreSize

/-- Compute the figures of a project anew. -/
def recompute (working : String) (source : ReportSource R) (noCoreSize : Bool) :
    Logged R (ProjectReport R) := do
  let reports ← Logged.ofExcept source.read
  ofReports working reports noCoreSize

/-- A project report as a source of module reports. -/
def toSource (p : ProjectReport R) : ReportSource R :=
  .reports (p.reports.map some)

end ProjectReport

end SourceMetrics
