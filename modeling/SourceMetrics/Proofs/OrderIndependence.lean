import SourceMetrics.Proofs.ProjectFigures
import SourceMetrics.Real.Binary64

/-! # A project does not depend on the order of its modules

Module reports are sorted by their paths before anything else is computed from them, and reports
with different paths can be sorted in one way only. So the figures of a project are the same for
every order of its reports, and so is the analysis of a project for every order of its modules
(`ProjectReport.same_report_of_perm`).
-/

namespace SourceMetrics

variable {R : Type} [Arithmetic R]

namespace ProjectReport

/-- Module reports in two orders give one project report, if their paths are different. -/
theorem ofReports_of_perm (zero_isZero : Arithmetic.isZero (Arithmetic.zero : R) = true)
    (working : String) {reports others : List (ModuleReport R)} (perm : reports.Perm others)
    (paths : ∀ m ∈ reports, m.hasPath = true) (derived : ∀ m ∈ reports, m.IsDerived)
    (distinct : (reports.map ModuleReport.pathText).Nodup) (noCoreSize : Bool) :
    ∃ p, (ofReports working reports noCoreSize).result = .ok p ∧
      (ofReports working others noCoreSize).result = .ok p ∧
      p.reports = ModuleReport.sorted reports := by
  obtain ⟨p, done, listed, -⟩ := ofReports_eq_ok zero_isZero working paths derived noCoreSize
  have same : ModuleReport.sorted reports = ModuleReport.sorted others :=
    Path.sortBy_eq_of_perm ModuleReport.pathText perm distinct
  refine ⟨p, done, ?_, listed⟩
  rw [ofReports, ← same]
  exact done

/-- A project does not depend on the order in which it is given. Module reports with different paths
and all of their figures have one and the same project report in every order, which lists them in
the order of their paths. Modules with different paths, if each of them can be analysed, have one
and the same project report in every order. -/
theorem same_report_of_perm (zero_isZero : Arithmetic.isZero (Arithmetic.zero : R) = true)
    (working : String) :
    (∀ (reports others : List (ModuleReport R)) (noCoreSize : Bool), reports.Perm others →
      (∀ m ∈ reports, m.hasPath = true ∧ m.IsDerived) →
      (reports.map ModuleReport.pathText).Nodup →
      ∃ p, (recompute working (.reports (reports.map some)) noCoreSize).result = .ok p ∧
        (recompute working (.reports (others.map some)) noCoreSize).result = .ok p ∧
        p.reports.Perm reports ∧
        p.reports.Pairwise fun a b => Path.before a.pathText b.pathText = true) ∧
    ∀ (modules others options : Value R) (walker : Walker R) (items items' : List (Value R))
      (listed : List (ProjectModule R)) (resolved : Options R),
      modules.items? = some items → others.items? = some items' → items.Perm items' →
      Options.resolve options = .ok resolved → resolved.skipCalculation = false →
      items.mapM ProjectModule.ofValue = .ok listed → (listed.map ProjectModule.path).Nodup →
      (∀ m ∈ listed, ∃ report, (m.analyze walker resolved.settings).result = .ok report) →
      ∃ p, (analyze working modules walker options).result = .ok p ∧
        (analyze working others walker options).result = .ok p := by
  constructor
  · intro reports others noCoreSize perm complete distinct
    have paths (m : ModuleReport R) (member : m ∈ reports) := (complete m member).1
    have otherPaths (m : ModuleReport R) (member : m ∈ others) := paths m (perm.mem_iff.mpr member)
    obtain ⟨p, done, again, sorted⟩ := ofReports_of_perm zero_isZero working perm paths
      (fun m member => (complete m member).2) distinct noCoreSize
    refine ⟨p, ?_, ?_, ?_, ?_⟩
    · rw [recompute, Logged.result_bind, Logged.result_ofExcept, ReportSource.read_reports paths]
      exact done
    · rw [recompute, Logged.result_bind, Logged.result_ofExcept,
        ReportSource.read_reports otherPaths]
      exact again
    · rw [sorted]
      exact Path.sortBy_perm _ _
    · rw [sorted]
      exact Path.pairwise_sortBy _ _
  · intro modules others options walker items items' listed resolved found foundToo perm accepted
      kept read distinct each
    obtain ⟨listed', readToo, permListed⟩ := mapM_eq_ok_of_perm perm read
    obtain ⟨reports, done⟩ := exists_mapM_eq_ok each
    obtain ⟨reports', doneToo, permReports⟩ := mapM_eq_ok_of_perm permListed done
    obtain ⟨paths, complete⟩ := ProjectModule.reports_of_mapM done
    rw [← paths] at distinct
    obtain ⟨p, first, second, -⟩ := ofReports_of_perm zero_isZero working permReports
      (fun m member => (complete m member).1) (fun m member => (complete m member).2) distinct
      resolved.noCoreSize
    have listOf : ProjectModule.listOf modules = .ok listed := by
      rw [ProjectModule.listOf, found]
      exact read
    have listOfToo : ProjectModule.listOf others = .ok listed' := by
      rw [ProjectModule.listOf, foundToo]
      exact readToo
    refine ⟨p, ?_, ?_⟩
    · rw [analyze_result working walker accepted listOf, done, ok_bind, kept]
      exact first
    · rw [analyze_result working walker accepted listOfToo, doneToo, ok_bind, kept]
      exact second

/-- A report at a path, with figures and a dependency on the module beside it. -/
def reportAt (path : String) : ModuleReport Binary64 :=
  { aggregate := .empty, path := .text path, loc := .int 2, cyclomatic := .int 1,
    effort := .real Arithmetic.one, params := .int 0, maintainability := .real Arithmetic.one,
    dependencies := [Dependency.make (.text "CommonJS") (.text "./main") (.int 1)] }

/-- A module at a path, with an empty tree. -/
def moduleAt (path : String) : Value Binary64 :=
  .dict [("path", .text path), ("tree", .dict [])]

/-- A walker that hands nothing over. -/
def idleWalker : Walker Binary64 :=
  .walks fun _ _ => { call := fun _ _ _ => .ok .null, trace := {} }

/-- Two modules in both orders, as reports and to be analysed. -/
theorem same_report_of_perm_two :
    (∃ p, (recompute "/" (.reports ([reportAt "lib/util.js", reportAt "main.js"].map some))
        false).result = .ok p ∧
      (recompute "/" (.reports ([reportAt "main.js", reportAt "lib/util.js"].map some))
        false).result = .ok p) ∧
    ∃ p, (analyze "/" (.list [moduleAt "lib/util.js", moduleAt "main.js"]) idleWalker
        .null).result = .ok p ∧
      (analyze "/" (.tuple [moduleAt "main.js", moduleAt "lib/util.js"]) idleWalker
        .null).result = .ok p := by
  obtain ⟨recomputed, analyzed⟩ := same_report_of_perm (R := Binary64) (by decide) "/"
  constructor
  · have complete (m : ModuleReport Binary64)
        (member : m ∈ [reportAt "lib/util.js", reportAt "main.js"]) :
        m.hasPath = true ∧ m.IsDerived := by
      simp only [List.mem_cons, List.not_mem_nil, or_false] at member
      rcases member with rfl | rfl
      all_goals exact ⟨rfl, ⟨_, rfl⟩, ⟨_, rfl⟩, ⟨_, rfl⟩, ⟨_, rfl⟩, ⟨_, rfl⟩⟩
    obtain ⟨p, first, second, -⟩ := recomputed _ _ false (.swap _ _ _) complete (by decide)
    exact ⟨p, first, second⟩
  · apply analyzed _ _ _ _ _ _ [⟨"lib/util.js", .dict []⟩, ⟨"main.js", .dict []⟩] {} rfl rfl
      (.swap _ _ _) rfl rfl rfl (by decide)
    intro m member
    simp only [List.mem_cons, List.not_mem_nil, or_false] at member
    rcases member with rfl | rfl
    all_goals exact ⟨_, rfl⟩

end ProjectReport

end SourceMetrics
