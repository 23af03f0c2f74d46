import SourceMetrics.Proofs.OrderIndependence

/-! # The figures of a project, computed again

A project report that is computed anew takes the module reports from the old one and nothing else.
They are sorted by their paths for the new report, and once more for its adjacency matrix. Sorting
is stable, so what has been sorted stays as it is, also where modules share a path
(`Path.sortBy_sortBy`). Hence an earlier computation leaves no trace in a later one, and the rows
and columns of the matrix are the module reports as they are listed
(`ProjectReport.recompute_recompute`).
-/

namespace SourceMetrics

variable {R : Type}

namespace Dependency

/-- A dependency of a source names a target if its path is a text that means the target. If it is of
the relative kind, the path has to start at a directory as well. -/
def Names (working source : String) (dependency : Value R) (target : String) : Prop :=
  ∃ declared, dependency.field "path" = .text declared ∧
    (dependency.field "type" = .text relativeType → Path.isRelative declared = true) ∧
    resolve working source declared target = target

private theorem isRelativeType_iff (dependency : Value R) :
    isRelativeType dependency = true ↔ dependency.field "type" = .text relativeType := by
  unfold isRelativeType
  split
  · next kind found => rw [found, decide_eq_true_iff, Value.text.injEq]
  · next other =>
    constructor
    · intro impossible
      cases impossible
    · intro found
      exact absurd found (other relativeType)

/-- A dependency leads to the modules that it names. -/
theorem leadsTo_iff (working source : String) (dependency : Value R) (target : String) :
    leadsTo working source dependency target = true ↔ Names working source dependency target := by
  unfold leadsTo Names
  split
  · next declared found =>
    rw [found, Bool.and_eq_true, decide_eq_true_iff, Bool.or_eq_true, Bool.not_eq_true',
      ← isRelativeType_iff]
    constructor
    · rintro ⟨relative, resolved⟩
      refine ⟨declared, rfl, ?_, resolved⟩
      intro kind
      simpa [kind] using relative
    · rintro ⟨declared, ⟨⟩, relative, resolved⟩
      refine ⟨?_, resolved⟩
      by_cases kind : isRelativeType dependency = true
      · exact .inr (relative kind)
      · exact .inl (by simpa using kind)
  · next other =>
    constructor
    · intro impossible
      cases impossible
    · rintro ⟨declared, found, -, -⟩
      exact absurd found (other declared)

instance (working source : String) (dependency : Value R) (target : String) :
    Decidable (Names working source dependency target) :=
  decidable_of_iff _ (leadsTo_iff working source dependency target)

end Dependency

/-- A module depends on those that one of its dependencies names. -/
theorem ModuleReport.dependsOn_iff (working : String) (source target : ModuleReport R) :
    source.dependsOn working target = true ↔ ∃ dependency ∈ source.dependencies,
      Dependency.Names working source.pathText dependency target.pathText := by
  simp only [dependsOn, List.any_eq_true, Dependency.leadsTo_iff]

namespace ProjectReport

variable [Arithmetic R]

/-- Sorted reports are computed to what the reports themselves are computed to. -/
theorem ofReports_sorted (working : String) (reports : List (ModuleReport R)) (noCoreSize : Bool) :
    ofReports working (ModuleReport.sorted reports) noCoreSize =
      ofReports working reports noCoreSize :=
  congrArg (fun listed => ofSorted working listed noCoreSize)
    (Path.sortBy_sortBy ModuleReport.pathText reports)

/-- **Computing the figures of a project twice is computing them once.** Let the module reports of a
project report have paths, which may be the same ones, and figures. Whatever else the project report
says, its figures can be computed anew, and computing those of the result anew gives what computing
them from the start gives, with the scores or without. In the adjacency matrix of every result there
is a one at `(x, y)` exactly if `x` and `y` differ and some dependency of the module report listed
at `x` names the path of the one listed at `y`. -/
theorem recompute_recompute (zero_isZero : Arithmetic.isZero (Arithmetic.zero : R) = true)
    (working : String) (r : ProjectReport R)
    (complete : ∀ m ∈ r.reports, m.hasPath = true ∧ m.IsDerived) (a b : Bool) :
    ∃ first second, (recompute working r.toSource a).result = .ok first ∧
      recompute working first.toSource b = recompute working r.toSource b ∧
      (recompute working r.toSource b).result = .ok second ∧
      second.reports = ModuleReport.sorted r.reports ∧
      second.summary.adjacency = some (Matrix.tabulate fun x y : Fin second.reports.length =>
        if x ≠ y ∧ ∃ dependency ∈ (second.reports.get x).dependencies,
          Dependency.Names working (second.reports.get x).pathText dependency
            (second.reports.get y).pathText
        then 1 else 0) := by
  have paths (m : ModuleReport R) (member : m ∈ r.reports) := (complete m member).1
  have derived (m : ModuleReport R) (member : m ∈ r.reports) := (complete m member).2
  obtain ⟨first, done, listed, -⟩ := ofReports_eq_ok zero_isZero working paths derived a
  obtain ⟨second, doneToo, listedToo, filled⟩ := ofReports_eq_ok zero_isZero working paths derived b
  have keptPaths : ∀ m ∈ first.reports, m.hasPath = true := by
    intro m member
    rw [listed] at member
    exact paths m ((Path.sortBy_perm ModuleReport.pathText r.reports).mem_iff.mp member)
  refine ⟨first, second, ?_, ?_, ?_, listedToo, ?_⟩
  · rw [toSource, recompute_reports working paths]
    exact done
  · -- All that is left of the first computation is the order of the reports.
    rw [toSource, toSource, recompute_reports working keptPaths, recompute_reports working paths,
      listed, ofReports_sorted]
  · rw [toSource, recompute_reports working paths]
    exact doneToo
  · have entries := Graph.adjacencyMatrix_ofFn working second.reports.get
    rw [List.ofFn_get] at entries
    rw [filled.adjacency, ← listedToo, entries]
    simp only [ModuleReport.dependsOn_iff]

/-- A project report with two modules of one path, a module that both depend on, and a figure that
is left from before. -/
def sharedPath : ProjectReport Binary64 :=
  { reports := [reportAt "/lib/util.js", reportAt "/lib/main.js", reportAt "/lib/util.js"]
    summary := { changeCost := some Arithmetic.zero } }

private theorem sorted_sharedPath : ModuleReport.sorted sharedPath.reports =
    [reportAt "/lib/main.js", reportAt "/lib/util.js", reportAt "/lib/util.js"] := by
  have late : Path.before (reportAt "/lib/util.js").pathText (reportAt "/lib/main.js").pathText =
      false := by decide
  have early : Path.before (reportAt "/lib/main.js").pathText (reportAt "/lib/util.js").pathText =
      true := by decide
  have level : Path.before (reportAt "/lib/util.js").pathText (reportAt "/lib/util.js").pathText =
      true := by decide
  simp [ModuleReport.sorted, Path.sortBy, sharedPath, List.mergeSort,
    List.MergeSort.Internal.splitInTwo, late, early, level]

/-- Both modules of the shared path depend on the third one, which is listed first. -/
theorem recompute_recompute_sharedPath : ∃ first second,
    (recompute "/" sharedPath.toSource true).result = .ok first ∧
    recompute "/" first.toSource false = recompute "/" sharedPath.toSource false ∧
    (recompute "/" sharedPath.toSource false).result = .ok second ∧
    second.summary.adjacency = some [[0, 0, 0], [1, 0, 0], [1, 0, 0]] := by
  have complete : ∀ m ∈ sharedPath.reports, m.hasPath = true ∧ m.IsDerived := by
    simp only [sharedPath, List.forall_mem_cons]
    have ready (path : String) : (reportAt path).hasPath = true ∧ (reportAt path).IsDerived :=
      ⟨rfl, ⟨_, rfl⟩, ⟨_, rfl⟩, ⟨_, rfl⟩, ⟨_, rfl⟩, ⟨_, rfl⟩⟩
    exact ⟨ready _, ready _, ready _, nofun⟩
  obtain ⟨first, second, done, same, again, listed, adjacency⟩ :=
    recompute_recompute (by decide) "/" sharedPath complete true false
  rw [sorted_sharedPath] at listed
  rw [listed] at adjacency
  exact ⟨first, second, done, same, again, adjacency.trans (congrArg some (by decide))⟩

end ProjectReport

end SourceMetrics
