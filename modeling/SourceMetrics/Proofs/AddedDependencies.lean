import SourceMetrics.Proofs.AdjacencyEntries
import SourceMetrics.Proofs.MutualVisibility

/-! # Adding dependencies

A project whose modules get more dependencies, and keep their paths, keeps its order of modules
(`Path.forall₂_sortBy`), so its matrices compare place by place: no entry gets smaller, neither of
the direct dependencies (`Graph.adjacentAt_mono`) nor of all that follow from them
(`Graph.visibleAt_mono`).
-/

namespace SourceMetrics

namespace Path

variable {α : Type} {path : α → String}

/-- Rows that agree in their paths item by item are sorted alike. -/
theorem forall₂_sortBy {related : α → α → Prop} (samePath : ∀ a b, related a b → path a = path b)
    {items others : List α} (each : List.Forall₂ related items others) :
    List.Forall₂ related (sortBy path items) (sortBy path others) := by
  let pairs := items.zip others
  have inside (pair : α × α) (member : pair ∈ pairs) : related pair.1 pair.2 :=
    (List.forall₂_iff_zip.mp each).2 member
  have firsts : pairs.map Prod.fst = items := List.map_fst_zip each.length_eq.le
  have seconds : pairs.map Prod.snd = others := List.map_snd_zip each.length_eq.ge
  let sorted := sortBy (fun pair => path pair.1) pairs
  have sortedFirsts : sorted.map Prod.fst = sortBy path items := by
    rw [← firsts]
    apply List.map_mergeSort
    intro a _ b _
    rfl
  have sortedSeconds : sorted.map Prod.snd = sortBy path others := by
    rw [← seconds]
    apply List.map_mergeSort
    intro a memberA b memberB
    exact congrArg₂ before (samePath _ _ (inside a memberA)) (samePath _ _ (inside b memberB))
  rw [← sortedFirsts, ← sortedSeconds, List.forall₂_map_left_iff, List.forall₂_map_right_iff,
    List.forall₂_same]
  intro pair member
  exact inside pair ((sortBy_perm _ pairs).mem_iff.mp member)

end Path

namespace ModuleReport

variable {R : Type}

/-- Another report of the same module that has all of its dependencies, and perhaps more. -/
structure Extends (m more : ModuleReport R) : Prop where
  path : m.path = more.path
  dependencies : m.dependencies ⊆ more.dependencies

namespace Extends

variable {m more target other : ModuleReport R}

theorem refl (m : ModuleReport R) : m.Extends m := ⟨rfl, List.Subset.refl _⟩

/-- More dependencies leave the path of a module as it is. -/
theorem pathText (extended : m.Extends more) : m.pathText = more.pathText := by
  rw [ModuleReport.pathText, ModuleReport.pathText, extended.path]

private theorem hasPath (extended : m.Extends more) : m.hasPath = more.hasPath := by
  rw [ModuleReport.hasPath, ModuleReport.hasPath, extended.path]

private theorem requirePath (extended : m.Extends more) : m.requirePath = more.requirePath := by
  rw [ModuleReport.requirePath, ModuleReport.requirePath, extended.path]

/-- A module that depends on another still does with more dependencies. -/
theorem dependsOn (extended : m.Extends more) (extendedToo : target.Extends other)
    {working : String} (depends : m.dependsOn working target = true) :
    more.dependsOn working other = true := by
  rw [dependsOn_iff] at depends ⊢
  obtain ⟨dependency, member, names⟩ := depends
  rw [extended.pathText, extendedToo.pathText] at names
  exact ⟨dependency, extended.dependencies member, names⟩

end Extends

private theorem hasPath_of_requirePath {m : ModuleReport R} (accepted : m.requirePath = .ok ()) :
    m.hasPath = true := by
  obtain ⟨text, isText, -⟩ := bind_eq_ok.mp accepted
  unfold hasPath
  cases path : m.path with
  | text => rfl
  | _ =>
    rw [path] at isText
    cases isText

/-- Modules that keep their paths stay at their places. -/
theorem exists_sorted_of_forall₂ {related : ModuleReport R → ModuleReport R → Prop}
    (samePath : ∀ m more, related m more → m.pathText = more.pathText)
    {reports others : List (ModuleReport R)} (related_each : List.Forall₂ related reports others) :
    ∃ item more : Fin reports.length → ModuleReport R,
      sorted reports = List.ofFn item ∧ sorted others = List.ofFn more ∧
        ∀ i, related (item i) (more i) := by
  have each : List.Forall₂ related (sorted reports) (sorted others) :=
    Path.forall₂_sortBy samePath related_each
  have length : reports.length = (sorted reports).length :=
    (Path.sortBy_perm pathText reports).length_eq.symm
  rw [length]
  refine ⟨(sorted reports).get, fun i => (sorted others).get (i.cast each.length_eq),
    (List.ofFn_get _).symm, ?_, ?_⟩
  · exact (List.ofFn_get _).symm.trans (List.ofFn_congr each.length_eq.symm _)
  · intro i
    exact each.get i.isLt (each.length_eq ▸ i.isLt)

variable {reports others : List (ModuleReport R)} (extended : List.Forall₂ Extends reports others)

include extended

/-- Modules with more dependencies have paths exactly if the modules they extend do. -/
theorem forall_hasPath_iff :
    (∀ m ∈ reports, m.hasPath = true) ↔ ∀ m ∈ others, m.hasPath = true := by
  induction extended with
  | nil => rfl
  | cons first _ ih => rw [List.forall_mem_cons, List.forall_mem_cons, ih, first.hasPath]

private theorem forM_requirePath_eq :
    reports.forM (fun m => (liftM m.requirePath : Except (Failure R) Unit)) =
      others.forM fun m => liftM m.requirePath := by
  induction extended with
  | nil => rfl
  | cons first _ ih => rw [List.forM, List.forM, ih, first.requirePath]

/-- Modules that get more dependencies stay at their places. -/
theorem exists_sorted_ofFn : ∃ item more : Fin reports.length → ModuleReport R,
    sorted reports = List.ofFn item ∧ sorted others = List.ofFn more ∧
      ∀ i, (item i).Extends (more i) :=
  exists_sorted_of_forall₂ (fun _ _ same => same.pathText) extended

end ModuleReport

namespace Graph

open SourceMetrics.Matrix

variable {n : Nat}

section Mono

variable {edge more : Fin n → Fin n → Bool} (kept : ∀ i j, edge i j = true → more i j = true)

include kept

/-- More edges only add ones to the visibility matrix. -/
theorem visibleAt_mono (i j : Fin n) : visibleAt edge i j ≤ visibleAt more i j := by
  rw [visibleAt]
  split
  · next visible =>
    have path := Relation.TransGen.mono kept i j visible.2
    exact (visibleAt_eq_one_iff.mpr ⟨visible.1, path⟩).ge
  · exact Nat.zero_le _

private theorem reachCount_mono : reachCount (tabulate edge) ≤ reachCount (tabulate more) := by
  classical
  rw [reachCount_tabulate, reachCount_tabulate]
  apply Finset.card_le_card
  apply Finset.monotone_filter_right
  intro place _
  exact Or.imp_right (Relation.TransGen.mono kept place.1 place.2)

end Mono

private theorem edgeCount_mono {entry more : Fin n → Fin n → Nat}
    (grown : ∀ i j, entry i j ≤ more i j) :
    edgeCount (tabulate entry) ≤ edgeCount (tabulate more) := by
  rw [edgeCount_tabulate, edgeCount_tabulate]
  apply Finset.card_le_card
  apply Finset.monotone_filter_right
  intro place _ entered
  have bound := grown place.1 place.2
  omega

/-- Each edge is a pair of different nodes, and each node is a pair with itself. -/
theorem edgeCount_add_le_reachCount {entry : Fin n → Fin n → Nat} (clear : ∀ i, entry i i = 0) :
    edgeCount (tabulate entry) + n ≤ reachCount (toEdges (tabulate entry)) := by
  classical
  let marked : Finset (Fin n × Fin n) := Finset.univ.filter fun place => entry place.1 place.2 ≠ 0
  let diagonal : Finset (Fin n × Fin n) := Finset.univ.filter fun place => place.1 = place.2
  have apart : Disjoint marked diagonal := by
    rw [Finset.disjoint_filter]
    intro place _ entered same
    exact entered (same ▸ clear place.1)
  have nodes : diagonal.card = n := by
    have diag : diagonal = (Finset.univ : Finset (Fin n)).diag := by
      ext place
      simp [diagonal]
    rw [diag, Finset.diag_card, Finset.card_univ, Fintype.card_fin]
  calc edgeCount (tabulate entry) + n
      = marked.card + diagonal.card := by rw [edgeCount_tabulate, nodes]
    _ = (marked ∪ diagonal).card := (Finset.card_union_of_disjoint apart).symm
    _ ≤ reachCount (toEdges (tabulate entry)) := by
      rw [toEdges_tabulate, reachCount_tabulate]
      apply Finset.card_le_card
      rw [← Finset.filter_or]
      apply Finset.monotone_filter_right
      rintro place - (entered | same)
      · exact .inr (.single (bne_iff_ne.mpr entered))
      · exact .inl same

private theorem reachCount_le (edge : Fin n → Fin n → Bool) :
    reachCount (tabulate edge) ≤ n * n := by
  classical
  rw [reachCount_tabulate]
  apply (Finset.card_filter_le _ _).trans
  simp

/-- A matrix has no edges exactly if all its entries are zero. -/
theorem edgeCount_eq_zero_iff (entry : Fin n → Fin n → Nat) :
    edgeCount (tabulate entry) = 0 ↔ ∀ i j, entry i j = 0 := by
  rw [edgeCount_tabulate, Finset.card_eq_zero, Finset.filter_eq_empty_iff]
  simp

/-- Nothing is visible exactly if there are no edges. -/
theorem visibleAt_eq_zero_iff {entry : Fin n → Fin n → Nat} (clear : ∀ i, entry i i = 0) :
    (∀ i j, visibleAt (fun i j => entry i j != 0) i j = 0) ↔ ∀ i j, entry i j = 0 := by
  constructor
  · intro hidden i j
    by_contra some
    have different : i ≠ j := by
      rintro rfl
      exact some (clear i)
    have visible : visibleAt (fun i j => entry i j != 0) i j = 1 :=
      visibleAt_eq_one_iff.mpr ⟨different, .single (bne_iff_ne.mpr some)⟩
    rw [hidden] at visible
    cases visible
  · intro unmarked i j
    rw [visibleAt, if_neg]
    rintro ⟨-, path⟩
    obtain ⟨k, first, -⟩ := Relation.TransGen.head'_iff.mp path
    exact bne_iff_ne.mp first (unmarked i k)

/-- What the dependencies between modules come to: the matrices of direct and of all dependencies,
the number of edges, and the number of pairs of modules of which the first one sees the second one
or is the second one. -/
structure Survey (n : Nat) where
  adjacent : Fin n → Fin n → Nat
  visible : Fin n → Fin n → Nat
  edges : Nat
  pairs : Nat

variable {R : Type}

/-- The entries of the adjacency matrix of modules. -/
def adjacentAt (working : String) (item : Fin n → ModuleReport R) (i j : Fin n) : Nat :=
  if i ≠ j ∧ (item i).dependsOn working (item j) = true then 1 else 0

/-- More dependencies only add ones to the adjacency matrix. -/
theorem adjacentAt_mono {working : String} {item more : Fin n → ModuleReport R}
    (extended : ∀ i, (item i).Extends (more i)) (i j : Fin n) :
    adjacentAt working item i j ≤ adjacentAt working more i j := by
  unfold adjacentAt
  split
  · next marked =>
    rw [if_pos ⟨marked.1, (extended i).dependsOn (extended j) marked.2⟩]
  · exact Nat.zero_le _

variable [Arithmetic R]

/-- A survey of modules tells their adjacency matrix, its visibility matrix, and the counts of which
the density and the change cost are percentages. -/
structure Survey.IsOf (survey : Survey n) (working : String) (reports : List (ModuleReport R)) :
    Prop where
  adjacency : (buildAdjacency working reports).result =
    .ok (tabulate survey.adjacent, Statistics.percentage survey.edges (n * n))
  visibility : visibility (toEdges (tabulate survey.adjacent)) = tabulate survey.visible
  changeCost : (changeCost (toEdges (tabulate survey.adjacent)) : R) =
    Statistics.percentage survey.pairs (n * n)
  edges : survey.edges = edgeCount (tabulate survey.adjacent)
  pairs : survey.pairs = reachCount (toEdges (tabulate survey.adjacent))

/-- The survey of an adjacency matrix. -/
noncomputable def surveyOf (entry : Fin n → Fin n → Nat) : Survey n where
  adjacent := entry
  visible := visibleAt fun i j => entry i j != 0
  edges := edgeCount (tabulate entry)
  pairs := reachCount (toEdges (tabulate entry))

/-- Modules with paths are surveyed by the matrix of their dependencies in path order. -/
theorem isOf_surveyOf {working : String} {reports : List (ModuleReport R)}
    (paths : ∀ m ∈ reports, m.hasPath = true) {item : Fin n → ModuleReport R}
    (listed : ModuleReport.sorted reports = List.ofFn item) :
    (surveyOf (adjacentAt working item)).IsOf working reports where
  adjacency := by
    have matrix := adjacencyMatrix_ofFn working item
    rw [ProjectReport.buildAdjacency_result working paths, listed, matrix, density, length_tabulate]
    rfl
  visibility := by
    rw [surveyOf, toEdges_tabulate]
    exact visibility_tabulate _
  changeCost := by
    rw [surveyOf, toEdges_tabulate, changeCost, length_tabulate]
  edges := rfl
  pairs := rfl

/-- Without a path for each module there is no adjacency matrix, whatever is added. -/
theorem buildAdjacency_eq_error {working : String} {reports others : List (ModuleReport R)}
    (extended : List.Forall₂ ModuleReport.Extends reports others)
    (pathless : ¬ ∀ m ∈ reports, m.hasPath = true) :
    ∃ failure, (buildAdjacency working reports).result = .error failure ∧
      (buildAdjacency working others).result = .error failure := by
  have same := ModuleReport.forM_requirePath_eq extended
  cases checked : reports.forM fun m => (liftM m.requirePath : Except (Failure R) Unit) with
  | ok _ =>
    rw [forM_eq_ok_iff] at checked
    have paths (m) (member : m ∈ reports) : m.hasPath = true :=
      ModuleReport.hasPath_of_requirePath (liftM_eq_ok.mp (checked m member))
    exact absurd paths pathless
  | error failure =>
    rw [checked] at same
    simp only [buildAdjacency, Logged.result_bind, Logged.result_ofExcept, checked, ← same]
    exact ⟨failure, rfl, rfl⟩

variable {K : Type} [Field K] [LinearOrder K] [IsStrictOrderedRing K] [FloorRing K]

/-- **Adding dependencies never hides structure.** Modules that keep their paths and get more
dependencies have matrices with entries at least as large, and counts of edges and of pairs at least
as large. In each project the edges and the modules together are no more than the pairs, which are
no more than the places of the matrix, and the density is zero exactly if no module sees another
one. If a module has no path, there is no matrix before and none after. -/
theorem added_dependencies_keep_structure (kit : FieldKit K) (working : String)
    {reports others : List (ModuleReport R)}
    (extended : List.Forall₂ ModuleReport.Extends reports others) :
    (∃ survey more : Survey reports.length,
      survey.IsOf working reports ∧ more.IsOf working others ∧
      (∀ i j, survey.adjacent i j ≤ more.adjacent i j) ∧
      (∀ i j, survey.visible i j ≤ more.visible i j) ∧
      survey.edges ≤ more.edges ∧ survey.pairs ≤ more.pairs ∧
      survey.edges + reports.length ≤ survey.pairs ∧
      survey.pairs ≤ reports.length * reports.length ∧
      ((Statistics.percentage survey.edges (reports.length * reports.length) : Exact K kit) =
        .finite 0 ↔ ∀ i j, survey.visible i j = 0)) ∨
    (∃ m ∈ reports, m.hasPath = false) ∧
      ∃ failure, (buildAdjacency working reports).result = .error failure ∧
        (buildAdjacency working others).result = .error failure := by
  by_cases paths : ∀ m ∈ reports, m.hasPath = true
  · left
    obtain ⟨item, other, listed, listedToo, each⟩ :=
      ModuleReport.exists_sorted_ofFn extended
    have grown (i j : Fin reports.length) :
        adjacentAt working item i j ≤ adjacentAt working other i j := adjacentAt_mono each i j
    have clear (i : Fin reports.length) : adjacentAt working item i i = 0 := by
      simp [adjacentAt]
    have otherPaths := (ModuleReport.forall_hasPath_iff extended).mp paths
    have kept : ∀ i j, (adjacentAt working item i j != 0) = true →
        (adjacentAt working other i j != 0) = true := by
      intro i j
      have bound := grown i j
      simp only [bne_iff_ne]
      omega
    refine ⟨surveyOf (adjacentAt working item), surveyOf (adjacentAt working other),
      isOf_surveyOf paths listed, isOf_surveyOf otherPaths listedToo, grown, visibleAt_mono kept,
      edgeCount_mono grown, ?_, edgeCount_add_le_reachCount clear, ?_, ?_⟩
    · simp only [surveyOf, toEdges_tabulate]
      exact reachCount_mono kept
    · simp only [surveyOf, toEdges_tabulate]
      exact reachCount_le _
    · simp only [surveyOf]
      rw [Exact.percentage_eq_zero_iff (edgeCount_tabulate_le _), edgeCount_eq_zero_iff,
        visibleAt_eq_zero_iff clear]
  · right
    refine ⟨?_, buildAdjacency_eq_error extended paths⟩
    simpa using paths

/-- `malformed` with a dependency that closes a cycle. -/
def closing : ModuleReport Binary64 :=
  declaring "/b.js"
    (Dependency.make (.text "CommonJS") (.text "./c") .null :: malformed.dependencies)

/-- A dependency that closes a chain of three modules into a cycle. -/
theorem added_dependencies_keep_structure_closing : ∃ survey more : Survey 3,
    survey.IsOf "/" [repeating, malformed, unprefixed] ∧
    more.IsOf "/" [repeating, closing, unprefixed] ∧
    (∀ i j, survey.visible i j ≤ more.visible i j) ∧
    survey.edges = 2 ∧ 2 ≤ more.edges ∧ survey.pairs = 6 ∧ 6 ≤ more.pairs := by
  have extended : List.Forall₂ ModuleReport.Extends [repeating, malformed, unprefixed]
      [repeating, closing, unprefixed] :=
    .cons (.refl _) (.cons ⟨rfl, List.subset_cons_self _ _⟩ (.cons (.refl _) .nil))
  rcases added_dependencies_keep_structure (K := ℚ) .lines "/" extended with
    ⟨survey, more, isOf, isOfMore, -, visible, edges, pairs, -⟩ | ⟨⟨m, member, pathless⟩, -⟩
  · have paths : ∀ m ∈ [repeating, malformed, unprefixed], m.hasPath = true := by
      simp only [List.forall_mem_cons]
      exact ⟨rfl, rfl, rfl, nofun⟩
    have built := isOf.adjacency
    rw [ProjectReport.buildAdjacency_result "/" paths, sorted_tangled] at built
    injection built with built
    have matrix : adjacencyMatrix "/" [malformed, unprefixed, repeating] =
        tabulate survey.adjacent :=
      congrArg Prod.fst built
    have two : survey.edges = 2 := by
      rw [isOf.edges, ← matrix]
      decide
    have six : survey.pairs = 6 := by
      rw [isOf.pairs, ← matrix]
      decide +kernel
    exact ⟨survey, more, isOf, isOfMore, visible, two, two ▸ edges, six, six ▸ pairs⟩
  · simp only [List.mem_cons, List.not_mem_nil, or_false] at member
    rcases member with rfl | rfl | rfl <;> cases pathless

end Graph

end SourceMetrics
