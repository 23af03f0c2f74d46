import SourceMetrics.Report.Project
import SourceMetrics.Value.Field

/-!
# Reports among the values

A report that a caller hands in is a record with the fields of the report. It can be read back as a
report, and it can be reported directly.
-/

namespace SourceMetrics

namespace Tally

variable {R : Type} [Arithmetic R]

/-- A tally as a record. -/
def toRecord (tally : Tally R) : Value R :=
  .record .tally
    [("distinct", tally.distinct),
     ("total", tally.total),
     ("identifiers", .dict (tally.names.map fun name => (name.message, name)))]

/-- A tally from the counts in a record; its tokens are not read back. -/
def ofRecord (record : Value R) : Tally R :=
  { distinct := record.field "distinct", total := record.field "total" }

end Tally

namespace Halstead

variable {R : Type} [Arithmetic R]

/-- Tallies and measures as a record. -/
def toRecord (h : Halstead R) : Value R :=
  .record .halstead
    [("operators", h.operators.toRecord),
     ("operands", h.operands.toRecord),
     ("length", h.measures.length),
     ("vocabulary", h.measures.vocabulary),
     ("difficulty", .real h.measures.difficulty),
     ("volume", .real h.measures.volume),
     ("effort", .real h.measures.effort),
     ("bugs", .real h.measures.bugs),
     ("time", .real h.measures.time)]

/-- Tallies from a record. The measures are derived from them later. -/
def ofRecord (record : Value R) : Halstead R :=
  { empty with
    operators := Tally.ofRecord (record.field "operators")
    operands := Tally.ofRecord (record.field "operands") }

end Halstead

namespace FunctionReport

variable {R : Type} [Arithmetic R]

/-- A function report as a record. -/
def toRecord (f : FunctionReport R) : Value R :=
  .record .functionReport
    [("name", f.name),
     ("line", f.line),
     ("sloc", .record .lineCounts [("logical", f.logical), ("physical", f.physical)]),
     ("cyclomatic", f.cyclomatic),
     ("halstead", f.halstead.toRecord),
     ("params", f.params),
     ("cyclomatic_density", f.density)]

/-- A function report from a record. -/
def ofRecord (record : Value R) : FunctionReport R :=
  { name := record.field "name"
    line := record.field "line"
    logical := (record.field "sloc").field "logical"
    physical := (record.field "sloc").field "physical"
    cyclomatic := record.field "cyclomatic"
    halstead := Halstead.ofRecord (record.field "halstead")
    params := record.field "params"
    density := record.field "cyclomatic_density" }

end FunctionReport

namespace ModuleReport

variable {R : Type} [Arithmetic R]

/-- The names under which a module report has its averages. -/
def figureNames : List String :=
  ["maintainability", "loc", "cyclomatic", "effort", "params"]

/-- A module report as a record, from its parts and from the fields that are given besides. -/
def recordOf (aggregate : FunctionReport R) (functions : List (FunctionReport R))
    (given : Entries (Value R)) : Value R :=
  let field := fun (name : String) => (name, (given.lookup name).getD .null)
  .record .moduleReport
    ([("aggregate", aggregate.toRecord),
      ("functions", .list (functions.map FunctionReport.toRecord)),
      ("dependencies", (given.lookup "dependencies").getD (.list [])),
      field "path"]
      ++ figureNames.map field)

/-- A module report from a record. Its dependencies are the items of whatever holds them. -/
def ofRecord (record : Value R) : Except Fault (ModuleReport R) := do
  let dependencies ← (record.field "dependencies").each
  let functions ← (record.field "functions").each
  return {
    aggregate := FunctionReport.ofRecord (record.field "aggregate")
    functions := functions.map FunctionReport.ofRecord
    dependencies
    path := record.field "path"
    maintainability := record.field "maintainability"
    loc := record.field "loc"
    cyclomatic := record.field "cyclomatic"
    effort := record.field "effort"
    params := record.field "params" }

/-- The module report that a value is, if it is one. -/
def ofValue? : Value R → Option (Except Fault (ModuleReport R))
  | .record .moduleReport fields => some (ofRecord (.record .moduleReport fields))
  | _ => none

end ModuleReport

namespace ProjectReport

variable {R : Type} [Arithmetic R]

/-- The names of the fields of a project report after its module reports. -/
def summaryNames : List String :=
  ["adjacency_matrix", "first_order_density", "visibility_matrix", "change_cost", "core_size",
   "loc", "cyclomatic", "effort", "params", "maintainability"]

/-- A project report as a record, from the fields that are given. A field that it does not have is
refused. -/
def recordOf (given : Entries (Value R)) : Except Fault (Value R) :=
  match given.find? fun entry => !("reports" :: summaryNames).contains entry.1 with
  | some entry => .error (.unexpectedField entry.1)
  | none =>
    .ok (.record .projectReport
      (("reports", (given.lookup "reports").getD (.list []))
        :: summaryNames.map fun name => (name, (given.lookup name).getD .null)))

/-- The summary in the fields of a project report, without what is absent. -/
def summaryOf (record : Value R) : Summary (Value R) (Value R) :=
  let known := fun (name : String) =>
    match record.field name with
    | .null => none
    | value => some value
  { adjacency := known "adjacency_matrix"
    firstOrderDensity := known "first_order_density"
    visibility := known "visibility_matrix"
    changeCost := known "change_cost"
    coreSize := known "core_size"
    loc := known "loc"
    cyclomatic := known "cyclomatic"
    effort := known "effort"
    params := known "params"
    maintainability := known "maintainability" }

end ProjectReport

namespace Value

variable {R : Type} [Arithmetic R]

mutual

/-- A value as it is reported, if it is a report or a dependency record. -/
def reported : Value R → Except Fault (Value R)
  | .record .dependency fields => .ok (Dependency.toValue (.record .dependency fields))
  | .record .moduleReport fields => do
    let report ← ModuleReport.ofRecord (.record .moduleReport fields)
    return report.toValue
  | .record .projectReport fields => do
    let reports ← reportedModules fields
    return ProjectReport.assemble reports
      (ProjectReport.summaryOf (.record .projectReport fields))
  | value => .error (.missingAttribute value.typeName "to_dict")

/-- The module reports in the fields of a project report as they are reported. -/
def reportedModules : List (String × Value R) → Except Fault (List (Value R))
  | [] => .ok []
  | (name, value) :: rest => if name = "reports" then reportedIn value else reportedModules rest

/-- The items of a value as they are reported. -/
def reportedIn : Value R → Except Fault (List (Value R))
  | .list items => reportedItems items
  | .tuple items => reportedItems items
  | value => do
    match ← value.each with
    | [] => return []
    | item :: _ => throw (.missingAttribute item.typeName "to_dict")

/-- Items as they are reported. -/
def reportedItems : List (Value R) → Except Fault (List (Value R))
  | [] => .ok []
  | item :: rest => do
    let first ← reported item
    let others ← reportedItems rest
    return first :: others

end

end Value

end SourceMetrics
