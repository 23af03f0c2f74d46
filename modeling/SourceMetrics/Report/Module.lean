import SourceMetrics.Report.Function

/-!
# Module reports

The report of one module: the module as a whole, its functions in the order in which their scopes
were opened, the dependencies that it declares, and the averages over its functions.
-/

namespace SourceMetrics

/-- The report of one module. An absent value stands for what is not known yet. -/
structure ModuleReport (R : Type) where
  aggregate : FunctionReport R
  functions : List (FunctionReport R) := []
  dependencies : List (Value R) := []
  path : Value R := .null
  maintainability : Value R := .null
  loc : Value R := .null
  cyclomatic : Value R := .null
  effort : Value R := .null
  params : Value R := .null

namespace Dependency

variable {R : Type}

/-- A dependency record of the library's own kind. -/
def make (type path line : Value R) : Value R :=
  .record .dependency [("type", type), ("path", path), ("line", line)]

/-- A dependency as it is reported: a record of the library's own kind becomes a mapping, without
its line if that is not known. -/
def toValue [Arithmetic R] (dependency : Value R) : Value R :=
  match dependency with
  | .record .dependency _ =>
    .dict
      ([("type", dependency.field "type"), ("path", dependency.field "path")]
        ++ FunctionReport.known [("line", dependency.field "line")])
  | value => value

end Dependency

namespace ModuleReport

variable {R : Type} [Arithmetic R]

/-- A module report as it is reported. -/
def toValue (m : ModuleReport R) : Value R :=
  .dict
    (FunctionReport.known [("path", m.path)]
      ++ [("aggregate", m.aggregate.toValue),
          ("functions", .list (m.functions.map FunctionReport.toValue)),
          ("dependencies", .list (m.dependencies.map Dependency.toValue))]
      ++ FunctionReport.known
          [("maintainability", m.maintainability),
           ("loc", m.loc),
           ("cyclomatic", m.cyclomatic),
           ("effort", m.effort),
           ("params", m.params)])

end ModuleReport

end SourceMetrics
