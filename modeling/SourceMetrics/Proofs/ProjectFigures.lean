import SourceMetrics.Proofs.CoreNodes
import SourceMetrics.Proofs.EdgeSearch
import SourceMetrics.Proofs.FullDerivation
import SourceMetrics.Proofs.PathOrder
import SourceMetrics.Proofs.ProjectRun

/-! # A project has its figures

Module reports whose own figures are all there (`ModuleReport.IsDerived`) and that have paths can be
summed up, whatever dependencies they declare: their adjacency matrix is square, so that fan-in and
fan-out pair up, and the averages add numbers only. The report of a project then has its matrix, its
averages and, unless they are left out, its scores (`Summary.IsFilled`), and it lists the module
reports in the order of their paths (`ProjectReport.ofReports_eq_ok`). Reports that come from trees
are of this kind (`ProjectModule.derivedReports_of_mapM`).
-/

namespace SourceMetrics

variable {R : Type}

namespace ModuleReport

/-- The path of a module that has one is a text. -/
theorem path_of_hasPath {m : ModuleReport R} (path : m.hasPath = true) :
    m.path = .text m.pathText := by
  unfold hasPath at path
  unfold pathText
  split at path
  · next text same => simp only [same]
  · cases path

private theorem requirePath_of_hasPath {m : ModuleReport R} (path : m.hasPath = true) :
    m.requirePath = .ok () := by
  rw [requirePath, path_of_hasPath path]
  rfl

end ModuleReport

namespace ReportSource

/-- Reports with paths are read as they are. -/
theorem read_reports {given : List (ModuleReport R)} (paths : ∀ m ∈ given, m.hasPath = true) :
    (reports (given.map some)).read = .ok given := by
  simp only [read]
  rw [mapM_eq_ok_iff, List.forall₂_map_left_iff, List.forall₂_same]
  intro m member
  simp only [requireReport, paths m member, ↓reduceIte]

end ReportSource

variable [Arithmetic R]

namespace Totals

/-- A measured figure can be added to any sum. -/
theorem add_of_isMeasured {value : Value R} (measured : value.IsMeasured) (sum : R) :
    ∃ next, add sum value = .ok next := by
  obtain ⟨x, real⟩ := measured
  unfold Value.toReal at real
  unfold add
  cases found : value.number? with
  | none =>
    rw [found] at real
    cases real
  | some n =>
    simp only [found] at real ⊢
    rw [real]
    exact ⟨_, rfl⟩

end Totals

/-- Modules that have paths are put in order and measured. -/
theorem Graph.buildAdjacency_eq (working : String) {reports : List (ModuleReport R)}
    (paths : ∀ m ∈ reports, m.hasPath = true) :
    buildAdjacency working reports = measureAdjacency working (ModuleReport.sorted reports) := by
  have accepted : reports.forM (fun m => liftM m.requirePath) =
      (.ok () : Except (Failure R) Unit) := by
    rw [forM_eq_ok_iff]
    intro m member
    exact liftM_eq_ok.mpr (ModuleReport.requirePath_of_hasPath (paths m member))
  unfold buildAdjacency
  rw [accepted]
  rfl

/-- A summary has an adjacency matrix, its density and all averages, and it has the scores unless
they are left out. -/
structure Summary.IsFilled (s : Summary BitMatrix R) (matrix : BitMatrix) (noCoreSize : Bool) :
    Prop where
  adjacency : s.adjacency = some matrix
  density : s.firstOrderDensity = some (Graph.density matrix)
  visibility : s.visibility.isSome = !noCoreSize
  changeCost : s.changeCost.isSome = !noCoreSize
  coreSize : s.coreSize.isSome = !noCoreSize
  loc : s.loc.isSome = true
  cyclomatic : s.cyclomatic.isSome = true
  effort : s.effort.isSome = true
  params : s.params.isSome = true
  maintainability : s.maintainability.isSome = true

namespace ProjectReport

private theorem average_eq_ok {figure : ModuleReport R → Value R} {reports : List (ModuleReport R)}
    (measured : ∀ m ∈ reports, (figure m).IsMeasured) :
    ∃ x, average figure reports = .ok x := by
  obtain ⟨sum, added⟩ := exists_foldlM_eq_ok
    (fun m member sum => Totals.add_of_isMeasured (measured m member) sum) Arithmetic.zero
  exact ⟨_, bind_eq_ok.mpr ⟨sum, added, rfl⟩⟩

/-- The averages are added, and nothing else is changed. -/
theorem addAverages_eq_ok {reports : List (ModuleReport R)}
    (derived : ∀ m ∈ reports, m.IsDerived) (summary : Summary BitMatrix R) :
    ∃ loc cyclomatic effort params maintainability, addAverages reports summary = .ok {
      summary with
      loc := some loc
      cyclomatic := some cyclomatic
      effort := some effort
      params := some params
      maintainability := some maintainability } := by
  obtain ⟨loc, locDone⟩ := average_eq_ok fun m member => (derived m member).loc
  obtain ⟨cyclomatic, cyclomaticDone⟩ := average_eq_ok fun m member => (derived m member).cyclomatic
  obtain ⟨effort, effortDone⟩ := average_eq_ok fun m member => (derived m member).effort
  obtain ⟨params, paramsDone⟩ := average_eq_ok fun m member => (derived m member).params
  obtain ⟨maintainability, maintainabilityDone⟩ :=
    average_eq_ok fun m member => (derived m member).maintainability
  simp only [addAverages, bind_eq_ok]
  exact ⟨loc, cyclomatic, effort, params, maintainability, loc, locDone, cyclomatic, cyclomaticDone,
    effort, effortDone, params, paramsDone, maintainability, maintainabilityDone, rfl⟩

/-- Modules that have paths have an adjacency matrix. -/
theorem buildAdjacency_result (working : String) {reports : List (ModuleReport R)}
    (paths : ∀ m ∈ reports, m.hasPath = true) :
    (Graph.buildAdjacency working reports).result =
      .ok (Graph.adjacencyMatrix working (ModuleReport.sorted reports),
        Graph.density (Graph.adjacencyMatrix working (ModuleReport.sorted reports))) := by
  rw [Graph.buildAdjacency_eq working paths, Graph.measureAdjacency_result]

/-- Modules in the order of their paths have their scores, unless these are left out. -/
theorem addClosure_eq_ok (zero_isZero : Arithmetic.isZero (Arithmetic.zero : R) = true)
    (noCoreSize : Bool) (working : String) (reports : List (ModuleReport R)) :
    let matrix := Graph.adjacencyMatrix working reports
    ∃ scored, (addClosure noCoreSize matrix (Graph.density matrix : R)
        { adjacency := some matrix, firstOrderDensity := some (Graph.density matrix) }).result =
          .ok scored ∧
      scored.adjacency = some matrix ∧ scored.firstOrderDensity = some (Graph.density matrix) ∧
      scored.visibility.isSome = !noCoreSize ∧ scored.changeCost.isSome = !noCoreSize ∧
      scored.coreSize.isSome = !noCoreSize := by
  intro matrix
  cases noCoreSize with
  | true => exact ⟨_, rfl, rfl, rfl, rfl, rfl, rfl⟩
  | false =>
    have entries := Graph.adjacencyMatrix_ofFn working reports.get
    rw [List.ofFn_get] at entries
    have empty : reports.length = 0 → (Value.real (Graph.density matrix : R)).isZero = true := by
      intro absent
      simp only [matrix, List.length_eq_zero_iff.mp absent]
      exact zero_isZero
    obtain ⟨c, done⟩ := Graph.exists_closure_tabulate _ empty
    rw [← Graph.toEdges_tabulate, ← entries] at done
    have closed : (Graph.closeAndScore (Graph.toEdges matrix) (.real (Graph.density matrix))).result =
        .ok c := by
      simp only [Graph.closeAndScore, Logged.result_bind, Logged.result_ofExcept, bind_eq_ok]
      exact ⟨c, liftM_eq_ok.mpr done, (), rfl, rfl⟩
    simp only [addClosure, Bool.false_eq_true, ↓reduceIte, Logged.result_bind, closed, ok_bind]
    exact ⟨_, rfl, rfl, rfl, rfl, rfl, rfl⟩

/-- Modules with paths and figures have a project report. -/
theorem ofReports_eq_ok (zero_isZero : Arithmetic.isZero (Arithmetic.zero : R) = true)
    (working : String) {reports : List (ModuleReport R)} (paths : ∀ m ∈ reports, m.hasPath = true)
    (derived : ∀ m ∈ reports, m.IsDerived) (noCoreSize : Bool) :
    ∃ p, (ofReports working reports noCoreSize).result = .ok p ∧
      p.reports = ModuleReport.sorted reports ∧
      p.summary.IsFilled (Graph.adjacencyMatrix working (ModuleReport.sorted reports))
        noCoreSize := by
  have inside {m : ModuleReport R} (member : m ∈ ModuleReport.sorted reports) : m ∈ reports :=
    (Path.sortBy_perm ModuleReport.pathText reports).mem_iff.mp member
  have adjacency := buildAdjacency_result working fun m member => paths m (inside member)
  -- The reports are sorted once more on the way to the matrix, which changes nothing.
  have again : ModuleReport.sorted (ModuleReport.sorted reports) = ModuleReport.sorted reports :=
    Path.sortBy_sortBy ModuleReport.pathText reports
  rw [again] at adjacency
  obtain ⟨scored, closed, adjacent, dense, visible, cost, core⟩ :=
    addClosure_eq_ok zero_isZero noCoreSize working (ModuleReport.sorted reports)
  have assembled (full : Summary BitMatrix R)
      (averaged : addAverages (ModuleReport.sorted reports) scored = .ok full) :
      (ofReports working reports noCoreSize).result = .ok ⟨ModuleReport.sorted reports, full⟩ := by
    simp only [ofReports, ofSorted, Logged.result_bind, Logged.result_ofExcept, bind_eq_ok]
    exact ⟨_, adjacency, scored, closed, full, liftM_eq_ok.mpr averaged, rfl⟩
  obtain ⟨loc, cyclomatic, effort, params, maintainability, averaged⟩ :=
    addAverages_eq_ok (fun m member => derived m (inside member)) scored
  exact ⟨_, assembled _ averaged, rfl, adjacent, dense, visible, cost, core, rfl, rfl, rfl, rfl, rfl⟩

/-- Computing the figures anew is computing them from the module reports. -/
theorem recompute_reports (working : String) {reports : List (ModuleReport R)}
    (paths : ∀ m ∈ reports, m.hasPath = true) (noCoreSize : Bool) :
    recompute working (.reports (reports.map some)) noCoreSize =
      ofReports working reports noCoreSize := by
  rw [recompute, ReportSource.read_reports paths]
  rfl

end ProjectReport

namespace ProjectModule

/-- What the analysis of a module gives has its path and its figures. -/
theorem analyze_eq_ok {walker : Walker R} {settings : Settings R} {m : ProjectModule R}
    {report : ModuleReport R} (done : (m.analyze walker settings).result = .ok report) :
    report.path = .text m.path ∧ report.IsFullyDerived (settings.flags .newmi) := by
  obtain ⟨own, found, rfl⟩ := analyze_eq_ok_iff.mp done
  rw [ModuleReport.analyze_result] at found
  exact ⟨rfl, (ModuleReport.isFullyDerived_of_ofTree found).withPath _⟩

/-- The reports of modules have the paths of the modules, one by one, and are fully derived. -/
theorem derivedReports_of_mapM {walker : Walker R} {settings : Settings R}
    {modules : List (ProjectModule R)} {reports : List (ModuleReport R)}
    (done : modules.mapM (fun m => (m.analyze walker settings).result) = .ok reports) :
    reports.map ModuleReport.pathText = modules.map path ∧
      ∀ report ∈ reports,
        report.hasPath = true ∧ report.IsFullyDerived (settings.flags .newmi) := by
  have each := mapM_eq_ok_iff.mp done
  induction each with
  | nil => simp
  | @cons m report modules reports analyzed rest ih =>
    obtain ⟨paths, complete⟩ := ih (mapM_eq_ok_iff.mpr rest)
    obtain ⟨named, derived⟩ := analyze_eq_ok analyzed
    constructor
    · rw [List.map_cons, List.map_cons, paths, ModuleReport.pathText, named]
    · have here : report.hasPath = true := by rw [ModuleReport.hasPath, named]
      exact List.forall_mem_cons.mpr ⟨⟨here, derived⟩, complete⟩

/-- Modules that are analyzed have reports with their paths, in the same order, and derived
figures. -/
theorem reports_of_mapM {walker : Walker R} {settings : Settings R}
    {modules : List (ProjectModule R)} {reports : List (ModuleReport R)}
    (done : modules.mapM (fun m => (m.analyze walker settings).result) = .ok reports) :
    reports.map ModuleReport.pathText = modules.map path ∧
      ∀ report ∈ reports, report.hasPath = true ∧ report.IsDerived :=
  ⟨(derivedReports_of_mapM done).1, fun report member =>
    ((derivedReports_of_mapM done).2 report member).imp_right ModuleReport.IsFullyDerived.figures⟩

end ProjectModule

end SourceMetrics
