import SourceMetrics.Config.Options
import SourceMetrics.Module.Analysis
import SourceMetrics.Project.Aggregate

/-!
# Analysing a project

Every module of a project is analysed on its own; the first failure, in the order of the modules,
ends the analysis, and then there is no report. A diagnostic is attributed to its module.
-/

namespace SourceMetrics

/-- A module of a project. -/
structure ProjectModule (R : Type) where
  path : String
  tree : Value R

namespace ProjectModule

variable {R : Type} [Arithmetic R]

/-- A module with a path, which has to be a text that is not empty. -/
def make (path tree : Value R) : Except (Failure R) (ProjectModule R) :=
  match path with
  | .text s =>
    if s.isEmpty then refuse else .ok { path := s, tree }
  | _ => refuse
where
  /-- Refuse the path. A path that cannot be written cannot be reported either. -/
  refuse : Except (Failure R) (ProjectModule R) :=
    if path.isWritable then
      .error (.diagnostic
        ((Diagnostic.invalidInput "Invalid path").attributeTo (.text path.quoted)))
    else .error (.fault .longInteger)

/-- The module that a value stands for: a project module, or a mapping with a path and a tree, which
may also be called `ast`. -/
def ofValue : Value R → Except (Failure R) (ProjectModule R)
  | .record .projectModule fields =>
    make ((fields.lookup "path").getD .null) ((fields.lookup "tree").getD .null)
  | .dict entries =>
    make ((entries.lookup "path").getD .null)
      ((entries.lookup "tree").getD ((entries.lookup "ast").getD .null))
  | value =>
    .error (.invalidInput "Invalid module" [("module_type", value.typeName)])

/-- The modules that a value lists. -/
def listOf (value : Value R) : Except (Failure R) (List (ProjectModule R)) :=
  match value.items? with
  | some items => items.mapM ofValue
  | none =>
    .error (.invalidInput "Invalid modules" [("modules_type", value.typeName)])

/-- A failure of a module's analysis, attributed to the module if it is a diagnostic. -/
def attributed (path : String) : Failure R → Failure R
  | .diagnostic d => .diagnostic (d.attributeTo (.text path))
  | .fault f => .fault f

/-- Analyse one module of a project. -/
def analyze (walker : Walker R) (settings : Settings R) (m : ProjectModule R) :
    Logged R (ModuleReport R) := do
  let report ←
    (ModuleReport.analyze m.tree walker (.ok settings)).mapFailure (attributed m.path)
  return { report with path := .text m.path }

/-- Analyse modules one after another, up to the first failure. -/
def analyzeEach (walker : Walker R) (settings : Settings R) :
    List (ProjectModule R) → Logged R (List (ModuleReport R))
  | [] => pure []
  | m :: rest => do
    let report ← analyze walker settings m
    let others ← analyzeEach walker settings rest
    return report :: others

/-- The number of workers when none is given. -/
def defaultWorkers : Int := 8

/-- What is logged before modules are analysed. -/
def startEntry (workers : Option Int) (count : Nat) : Log.Entry :=
  let used := min (workers.getD defaultWorkers) count
  Log.trace "project" s!"Analyzing {count} modules with {used} workers"

/-- What is logged after a failure. -/
def failureEntry (failure : Failure R) : Log.Entry :=
  Log.trace "project" ("Module analysis failed: " ++ failure.text)

/-- Analyse all modules of a project. -/
def analyzeAll (walker : Walker R) (settings : Settings R) (workers : Option Int)
    (modules : List (ProjectModule R)) : Logged R (List (ModuleReport R)) :=
  if modules.isEmpty then pure []
  else do
    Logged.entry (startEntry workers modules.length)
    (analyzeEach walker settings modules).onFailure failureEntry

end ProjectModule

namespace ProjectReport

variable {R : Type} [Arithmetic R]

/-- Analyse a project. With the calculation skipped, the report has the module reports only. -/
def analyze (working : String) (modules : Value R) (walker : Walker R) (options : Value R) :
    Logged R (ProjectReport R) := do
  let resolved ← Logged.ofExcept (Options.resolve options)
  let modules ← Logged.ofExcept (ProjectModule.listOf modules)
  let reports ← ProjectModule.analyzeAll walker resolved.settings resolved.workers modules
  if resolved.skipCalculation then
    return { reports }
  else
    ofReports working reports resolved.noCoreSize

end ProjectReport

end SourceMetrics
