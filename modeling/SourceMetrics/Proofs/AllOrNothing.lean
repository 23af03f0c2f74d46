import SourceMetrics.Proofs.EscapingFaults
import SourceMetrics.Proofs.Recomputation

/-! # A project is analysed as a whole or not at all

The analysis of a project gives a report exactly if the analysis of each of its modules does, and
otherwise fails as one of its modules. Nothing can fail after the modules have been analysed: what
is summed up over the modules has been derived for each of them, and no dependency that a walker may
hand over upsets the paths (`Dependency.check_text`). The report is then complete
(`ProjectReport.IsComplete`), unless the calculation is skipped.
-/

namespace SourceMetrics

variable {R : Type}

namespace Dependency

/-- Among texts, paths are resolved without a fault. An extension is lent only to a path that has
none. -/
theorem resolveValue_text (working source declared target : String) :
    resolveValue working (.text source) (.text declared) (.text target : Value R) =
      .ok (.text (resolve working source declared target)) := by
  unfold resolveValue resolve withExtension
  by_cases bare : Path.extension declared.toList = []
  · simp only [bare, ↓reduceIte]
    rfl
  · simp only [bare, ↓reduceIte]
    rfl

/-- Between paths that are texts, any value can be checked for a dependency. -/
theorem check_text (working source : String) (dependency : Value R) (target : String) :
    check working (.text source) dependency (.text target) =
      .ok (leadsTo working source dependency target) := by
  unfold check leadsTo
  split
  · next declared _ =>
    rw [resolveValue_text]
    -- Two texts are left to compare, so the outcome is a truth value.
    change (if _ then _ else Except.ok (decide (resolve working source declared target = target))) =
      _
    cases isRelativeType dependency <;> cases Path.isRelative declared <;> simp
  · rfl

end Dependency

variable [Arithmetic R]

namespace ProjectReport

/-- A project report in which nothing is missing: every module report has a path and all of its
figures, the adjacency matrix has a row and a column for each of them, and the summary is filled. -/
structure IsComplete (p : ProjectReport R) (working : String) (rescaled noCoreSize : Bool) :
    Prop where
  paths : ∀ m ∈ p.reports, m.hasPath = true
  derived : ∀ m ∈ p.reports, m.IsFullyDerived rescaled
  filled : p.summary.IsFilled (Graph.adjacencyMatrix working p.reports) noCoreSize
  rows : (Graph.adjacencyMatrix working p.reports).length = p.reports.length
  columns : ∀ row ∈ Graph.adjacencyMatrix working p.reports, row.length = p.reports.length

/-- Derived module reports are summed up to a complete project report. -/
theorem exists_isComplete (zero_isZero : Arithmetic.isZero (Arithmetic.zero : R) = true)
    (working : String) {reports : List (ModuleReport R)} {rescaled : Bool}
    (paths : ∀ m ∈ reports, m.hasPath = true)
    (derived : ∀ m ∈ reports, m.IsFullyDerived rescaled) (noCoreSize : Bool) :
    ∃ p, (ofReports working reports noCoreSize).result = .ok p ∧
      p.IsComplete working rescaled noCoreSize := by
  obtain ⟨p, done, listed, filled⟩ := ofReports_eq_ok zero_isZero working paths
    (fun m member => (derived m member).figures) noCoreSize
  have inside {m : ModuleReport R} (member : m ∈ p.reports) : m ∈ reports := by
    rw [listed] at member
    exact (Path.sortBy_perm ModuleReport.pathText reports).mem_iff.mp member
  rw [← listed] at filled
  exact ⟨p, done, fun m member => paths m (inside member),
    fun m member => derived m (inside member), filled, Graph.length_adjacencyMatrix working _,
    fun _ => Graph.length_row_adjacencyMatrix⟩

/-- A bare report of modules lists the reports of their trees in the order of the modules, with the
paths of the modules, and has no summary. -/
structure IsBareOf (bare : ProjectReport R) (walker : Walker R) (settings : Settings R)
    (modules : List (ProjectModule R)) : Prop where
  reports : List.Forall₂ (fun m report => ∃ own,
    (ModuleReport.analyze m.tree walker (.ok settings)).result = .ok own ∧
      report = { own with path := .text m.path }) modules bare.reports
  summary : bare.summary = {}

private theorem exists_isBareOf {walker : Walker R} {settings : Settings R}
    {modules : List (ProjectModule R)}
    (each : ∀ m ∈ modules, ∃ own,
      (ModuleReport.analyze m.tree walker (.ok settings)).result = .ok own) :
    ∃ bare : ProjectReport R, bare.IsBareOf walker settings modules := by
  have analyzed : ∀ m ∈ modules, ∃ report, (m.analyze walker settings).result = .ok report := by
    intro m member
    obtain ⟨own, done⟩ := each m member
    exact ⟨_, ProjectModule.analyze_eq_ok_iff.mpr ⟨own, done, rfl⟩⟩
  obtain ⟨reports, done⟩ := exists_mapM_eq_ok analyzed
  refine ⟨{ reports }, ?_, rfl⟩
  exact (mapM_eq_ok_iff.mp done).imp fun _ _ => ProjectModule.analyze_eq_ok_iff.mp

namespace IsBareOf

variable {bare : ProjectReport R} {walker : Walker R} {settings : Settings R}
  {listed : List (ProjectModule R)}

private theorem mapM_analyze (isBare : bare.IsBareOf walker settings listed) :
    (listed.mapM fun m => (m.analyze walker settings).result) = .ok bare.reports :=
  mapM_eq_ok_iff.mpr (isBare.reports.imp fun _ _ => ProjectModule.analyze_eq_ok_iff.mpr)

private theorem hasPath (isBare : bare.IsBareOf walker settings listed) :
    ∀ m ∈ bare.reports, m.hasPath = true := fun m member =>
  ((ProjectModule.derivedReports_of_mapM isBare.mapM_analyze).2 m member).1

private theorem isFullyDerived (isBare : bare.IsBareOf walker settings listed) :
    ∀ m ∈ bare.reports, m.IsFullyDerived (settings.flags .newmi) := fun m member =>
  ((ProjectModule.derivedReports_of_mapM isBare.mapM_analyze).2 m member).2

/-- The analysis of a project goes through its bare report. -/
theorem analyze_result {resolved : Options R}
    (isBare : bare.IsBareOf walker resolved.settings listed)
    (working : String) {modules options : Value R}
    (accepted : Options.resolve options = .ok resolved)
    (read : ProjectModule.listOf modules = .ok listed) :
    (analyze working modules walker options).result =
      if resolved.skipCalculation then .ok bare
      else (recompute working bare.toSource resolved.noCoreSize).result := by
  have same : bare = { reports := bare.reports } := by
    rw [← isBare.summary]
  rw [ProjectReport.analyze_result working walker accepted read, isBare.mapM_analyze, ok_bind,
    toSource, recompute_reports working isBare.hasPath, ← same]

private theorem exists_result {resolved : Options R}
    (isBare : bare.IsBareOf walker resolved.settings listed)
    (zero_isZero : Arithmetic.isZero (Arithmetic.zero : R) = true) (working : String)
    {modules options : Value R} (accepted : Options.resolve options = .ok resolved)
    (read : ProjectModule.listOf modules = .ok listed) :
    ∃ p, (analyze working modules walker options).result = .ok p ∧
      if resolved.skipCalculation then p = bare
      else (recompute working bare.toSource resolved.noCoreSize).result = .ok p ∧
        p.IsComplete working (resolved.settings.flags .newmi) resolved.noCoreSize := by
  rw [isBare.analyze_result working accepted read]
  by_cases skipped : resolved.skipCalculation = true
  · simp only [skipped, ↓reduceIte]
    exact ⟨bare, rfl, rfl⟩
  · simp only [skipped, Bool.false_eq_true, ↓reduceIte]
    obtain ⟨p, done, complete⟩ := exists_isComplete zero_isZero working isBare.hasPath
      isBare.isFullyDerived resolved.noCoreSize
    rw [← recompute_reports working isBare.hasPath] at done
    exact ⟨p, done, done, complete⟩

/-- Whatever dependencies a bare report is given, it can be summed up. -/
theorem recompute_dependencies (isBare : bare.IsBareOf walker settings listed)
    (zero_isZero : Arithmetic.isZero (Arithmetic.zero : R) = true) (working : String)
    (dependencies : ModuleReport R → List (Value R)) (noCoreSize : Bool) :
    ∃ q, (recompute working (.reports (bare.reports.map fun m =>
      some { m with dependencies := dependencies m })) noCoreSize).result = .ok q := by
  let given := bare.reports.map fun m => { m with dependencies := dependencies m }
  have paths : ∀ m ∈ given, m.hasPath = true := by
    intro m member
    obtain ⟨own, inside, rfl⟩ := List.mem_map.mp member
    exact isBare.hasPath own inside
  have derived : ∀ m ∈ given, m.IsDerived := by
    intro m member
    obtain ⟨own, inside, rfl⟩ := List.mem_map.mp member
    obtain ⟨loc, cyclomatic, effort, params, maintainability⟩ :=
      (isBare.isFullyDerived own inside).figures
    exact ⟨loc, cyclomatic, effort, params, maintainability⟩
  obtain ⟨q, done, -⟩ := ofReports_eq_ok zero_isZero working paths derived noCoreSize
  rw [← recompute_reports working paths, List.map_map] at done
  exact ⟨q, done⟩

private theorem check_eq (isBare : bare.IsBareOf walker settings listed) (working : String)
    {source target : ModuleReport R} (fromHere : source ∈ bare.reports)
    (toHere : target ∈ bare.reports) (dependency : Value R) :
    Dependency.check working source.path dependency target.path =
      .ok (Dependency.leadsTo working source.pathText dependency target.pathText) := by
  rw [ModuleReport.path_of_hasPath (isBare.hasPath source fromHere),
    ModuleReport.path_of_hasPath (isBare.hasPath target toHere), Dependency.check_text]

end IsBareOf

/-- **A project is analysed as a whole or not at all.** Given modules and options that are accepted,
the analysis of a project succeeds exactly if that of each module's tree does. Otherwise it fails as
that of one of the trees, with the path of the module added to a diagnostic. The result is the bare
report of the modules if the calculation is skipped. If not, it is what the bare report is computed
anew to, and complete. Whatever dependencies are put into the bare report, computing it anew
succeeds, and each of them can be checked between any two modules. -/
theorem analyze_all_or_nothing (zero_isZero : Arithmetic.isZero (Arithmetic.zero : R) = true)
    (working : String) {modules options : Value R} (walker : Walker R) {resolved : Options R}
    {listed : List (ProjectModule R)} (accepted : Options.resolve options = .ok resolved)
    (read : ProjectModule.listOf modules = .ok listed) :
    let own := fun m : ProjectModule R =>
      (ModuleReport.analyze m.tree walker (.ok resolved.settings)).result
    let outcome := (analyze working modules walker options).result
    ((∃ p, outcome = .ok p) ↔ ∀ m ∈ listed, ∃ report, own m = .ok report) ∧
    ((¬ ∀ m ∈ listed, ∃ report, own m = .ok report) → ∃ m ∈ listed, ∃ cause,
      own m = .error cause ∧ outcome = .error (ProjectModule.attributed m.path cause)) ∧
    ∀ p, outcome = .ok p → ∃ bare : ProjectReport R,
      bare.IsBareOf walker resolved.settings listed ∧
      (if resolved.skipCalculation then p = bare
        else (recompute working bare.toSource resolved.noCoreSize).result = .ok p ∧
          p.IsComplete working (resolved.settings.flags .newmi) resolved.noCoreSize) ∧
      (∀ (dependencies : ModuleReport R → List (Value R)) (noCoreSize : Bool), ∃ q,
        (recompute working (.reports (bare.reports.map fun m =>
          some { m with dependencies := dependencies m })) noCoreSize).result = .ok q) ∧
      ∀ source ∈ bare.reports, ∀ target ∈ bare.reports, ∀ dependency,
        Dependency.check working source.path dependency target.path =
          .ok (Dependency.leadsTo working source.pathText dependency target.pathText) := by
  intro own outcome
  -- The modules are the only source of failures, so a failing module decides the outcome, and a
  -- report means that there is none.
  have fails (broken : ¬ ∀ m ∈ listed, ∃ report, own m = .ok report) : ∃ m ∈ listed, ∃ cause,
      own m = .error cause ∧ outcome = .error (ProjectModule.attributed m.path cause) := by
    simp only [own, ModuleReport.analyze_result] at broken ⊢
    push Not at broken
    obtain ⟨m, member, failed⟩ := broken
    cases broke : ModuleReport.ofTree m.tree walker (.ok resolved.settings) with
    | ok report => exact absurd broke (failed report)
    | error cause => exact analyze_eq_error working accepted read member broke
  have all {p : ProjectReport R} (done : outcome = .ok p) :
      ∀ m ∈ listed, ∃ report, own m = .ok report := by
    by_contra broken
    obtain ⟨m, -, cause, -, failed⟩ := fails broken
    cases done.symm.trans failed
  refine ⟨⟨?_, ?_⟩, fails, ?_⟩
  · rintro ⟨p, done⟩
    exact all done
  · intro each
    obtain ⟨bare, isBare⟩ := exists_isBareOf each
    obtain ⟨p, done, -⟩ := isBare.exists_result zero_isZero working accepted read
    exact ⟨p, done⟩
  · intro p done
    obtain ⟨bare, isBare⟩ := exists_isBareOf (all done)
    obtain ⟨q, again, shape⟩ := isBare.exists_result zero_isZero working accepted read
    cases done.symm.trans again
    refine ⟨bare, isBare, shape, isBare.recompute_dependencies zero_isZero working, ?_⟩
    intro source fromHere target toHere
    exact isBare.check_eq working fromHere toHere

/-- Two modules, of which the second one has a given tree. -/
def pairWith (tree : Value Binary64) : Value Binary64 :=
  .list [.dict [("path", .text "b.js"), ("tree", .dict [])],
    .dict [("path", .text "a.js"), ("tree", tree)]]

/-- Two modules with a scope each have a complete report. If the scope of the second one is at a
line without a number, there is no report, but a diagnostic that names the second module. -/
theorem analyze_all_or_nothing_pair :
    (∃ p, (analyze "/" (pairWith (.dict [])) ModuleReport.scopeWalker .null).result = .ok p ∧
      p.IsComplete "/" false false) ∧
    ∃ d, (analyze "/" (pairWith (.dict [("scope", ModuleReport.textLine)]))
        ModuleReport.scopeWalker .null).result = .error (.diagnostic d) ∧
      d.kind = .traversal ∧ d.details.lookup "module" = some (.text "a.js") := by
  have accepted : Options.resolve (.null : Value Binary64) = .ok {} := rfl
  have read (tree : Value Binary64) : ProjectModule.listOf (pairWith tree) =
      .ok [⟨"b.js", .dict []⟩, ⟨"a.js", tree⟩] := rfl
  have plain : ∃ own, (ModuleReport.analyze (.dict []) ModuleReport.scopeWalker
      (.ok ({} : Options Binary64).settings)).result = .ok own := ⟨_, rfl⟩
  have broken : ∃ d : Diagnostic Binary64, (ModuleReport.analyze
      (.dict [("scope", ModuleReport.textLine)]) ModuleReport.scopeWalker
      (.ok ({} : Options Binary64).settings)).result = .error (.diagnostic d) ∧
        d.kind = .traversal := ⟨_, rfl, rfl⟩
  constructor
  · obtain ⟨⟨-, succeeds⟩, -, shape⟩ := analyze_all_or_nothing (by decide) "/"
      ModuleReport.scopeWalker accepted (read (.dict []))
    obtain ⟨p, done⟩ := succeeds (by simpa using plain)
    obtain ⟨bare, -, ⟨-, complete⟩, -⟩ := shape p done
    exact ⟨p, done, complete⟩
  · obtain ⟨d, broke, kind⟩ := broken
    obtain ⟨-, fails, -⟩ := analyze_all_or_nothing (by decide) "/"
      ModuleReport.scopeWalker accepted (read (.dict [("scope", ModuleReport.textLine)]))
    obtain ⟨m, member, cause, failed, whole⟩ := fails (by simp [broke])
    simp only [List.mem_cons, List.not_mem_nil, or_false] at member
    rcases member with rfl | rfl
    · obtain ⟨own, fine⟩ := plain
      cases failed.symm.trans fine
    · cases failed.symm.trans broke
      exact ⟨_, whole, kind, Entries.lookup_insert_self _ _ _⟩

end ProjectReport

end SourceMetrics
