import SourceMetrics.Project.Analysis

/-!
# Analysing either

One entry point serves both a single tree and a project: a list or a tuple holds the modules of a
project, and anything else is the tree of a module.
-/

namespace SourceMetrics

/-- The report of a module or of a project. -/
inductive Report (R : Type) where
  | ofModule (report : ModuleReport R)
  | ofProject (report : ProjectReport R)

namespace Report

variable {R : Type} [Arithmetic R]

/-- A report as it is reported. -/
def toValue : Report R → Value R
  | .ofModule m => m.toValue
  | .ofProject p => p.toValue

end Report

/-- Analyse a tree with settings, or the modules of a project with options. -/
def analyze {R : Type} [Arithmetic R] (working : String) (target : Value R) (walker : Walker R)
    (options : Value R) : Logged R (Report R) :=
  match target.items? with
  | some _ => do
    let report ← ProjectReport.analyze working target walker options
    return .ofProject report
  | none => do
    let report ← ModuleReport.analyze target walker (Settings.resolve options)
    return .ofModule report

end SourceMetrics
