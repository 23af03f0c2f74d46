import SourceMetrics.Project.Analysis
import SourceMetrics.Proofs.Outcome

/-! # The analysis of a project, module by module

What an analysis logs has no influence on its result. Without the log, the analysis of a project is
that of its modules one by one, up to the first failure, with the figures of the project computed
from their reports (`ProjectReport.analyze_result`).
-/

namespace SourceMetrics

variable {R : Type} [Arithmetic R]

/-- An analysis has the report of the tree as its result, next to what it logs. -/
theorem ModuleReport.analyze_result (tree : Value R) (walker : Walker R)
    (settings : Except (Failure R) (Settings R)) :
    (analyze tree walker settings).result = ofTree tree walker settings := by
  simp only [analyze, Logged.result_bind, Logged.result_ofExcept, Logged.result_entry]
  cases ofTree tree walker settings <;> rfl

namespace ProjectModule

/-- A module of a project has the report of its tree, with its path, or the failure of its tree,
attributed to it. -/
theorem analyze_result (walker : Walker R) (settings : Settings R) (m : ProjectModule R) :
    (m.analyze walker settings).result =
      ((ModuleReport.ofTree m.tree walker (.ok settings)).mapError (attributed m.path)).map
        fun report => { report with path := .text m.path } := by
  simp only [analyze, Logged.result_bind, Logged.result_mapFailure, ModuleReport.analyze_result]
  cases ModuleReport.ofTree m.tree walker (.ok settings) <;> rfl

/-- A module of a project is reported like its tree alone, with the path of the module. -/
theorem analyze_eq_ok_iff {walker : Walker R} {settings : Settings R}
    {m : ProjectModule R} {report : ModuleReport R} :
    (m.analyze walker settings).result = .ok report ↔
      ∃ own, (ModuleReport.analyze m.tree walker (.ok settings)).result = .ok own ∧
        report = { own with path := .text m.path } := by
  rw [analyze_result, ModuleReport.analyze_result]
  cases ModuleReport.ofTree m.tree walker (.ok settings) with
  | error failure => simp [Except.mapError, Except.map]
  | ok own => simp [Except.mapError, Except.map, eq_comm]

private theorem analyzeEach_result (walker : Walker R) (settings : Settings R)
    (modules : List (ProjectModule R)) :
    (analyzeEach walker settings modules).result =
      modules.mapM fun m => (m.analyze walker settings).result := by
  induction modules with
  | nil => rfl
  | cons m rest ih =>
    simp only [analyzeEach, Logged.result_bind, Logged.result_pure, ih, List.mapM_cons]
    rfl

private theorem analyzeAll_result (walker : Walker R) (settings : Settings R) (workers : Option Int)
    (modules : List (ProjectModule R)) :
    (analyzeAll walker settings workers modules).result =
      modules.mapM fun m => (m.analyze walker settings).result := by
  unfold analyzeAll
  cases modules with
  | nil => rfl
  | cons m rest =>
    simp only [List.isEmpty_cons, Bool.false_eq_true, ↓reduceIte, Logged.result_bind,
      Logged.result_entry, Logged.result_onFailure, analyzeEach_result]
    rfl

end ProjectModule

namespace ProjectReport

/-- The report of a project, from those of its modules. -/
theorem analyze_result (working : String) {modules options : Value R} (walker : Walker R)
    {resolved : Options R} {listed : List (ProjectModule R)}
    (accepted : Options.resolve options = .ok resolved)
    (read : ProjectModule.listOf modules = .ok listed) :
    (analyze working modules walker options).result =
      (listed.mapM fun m => (m.analyze walker resolved.settings).result) >>= fun reports =>
        if resolved.skipCalculation then .ok { reports }
        else (ofReports working reports resolved.noCoreSize).result := by
  simp only [analyze, Logged.result_bind, Logged.result_ofExcept, accepted, read, ok_bind,
    ProjectModule.analyzeAll_result]
  apply bind_congr
  intro reports
  split <;> rfl

end ProjectReport

end SourceMetrics
