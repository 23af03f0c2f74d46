import SourceMetrics.Graph.Adjacency
import SourceMetrics.Proofs.SquareMatrix

/-! # The search for edges

The adjacency matrix is filled while all pairs of modules are gone through, and each edge is counted
when it is entered. When some pairs have been seen, the matrix has the edges among them, and as many
have been counted (`EdgeSearch.HasSeen`). To look at one more pair keeps this
(`EdgeSearch.HasSeen.look`), so a whole search counts the entries of its matrix that are not zero
(`Graph.edges_findEdges`), and it takes their share for the density.
-/

namespace SourceMetrics

namespace Graph

open SourceMetrics.Matrix

variable {n : Nat}

/-- The number of edges: the entries that are not zero. -/
def edgeCount (matrix : BitMatrix) : Nat :=
  matrix.flatten.countP (· != 0)

/-- The edges of a square matrix are the places of its entries that are not zero. -/
theorem edgeCount_tabulate (entry : Fin n → Fin n → Nat) :
    edgeCount (tabulate entry) =
      (Finset.univ.filter fun place : Fin n × Fin n => entry place.1 place.2 ≠ 0).card := by
  rw [edgeCount, countP_flatten_tabulate]
  simp only [bne_iff_ne]

/-- A square matrix has no more edges than entries. -/
theorem edgeCount_tabulate_le (entry : Fin n → Fin n → Nat) :
    edgeCount (tabulate entry) ≤ n * n := by
  rw [edgeCount_tabulate]
  apply (Finset.card_filter_le _ _).trans
  simp

/-- The first-order density of an adjacency matrix: the percentage of edges among its entries. -/
def density {R : Type} [Arithmetic R] (matrix : BitMatrix) : R :=
  Statistics.percentage (edgeCount matrix) (matrix.length * matrix.length)

/-- What a search has found when it has seen some pairs of places: the edges among them, once for
each pair. -/
structure EdgeSearch.HasSeen (edge : Fin n → Fin n → Bool) (seen : List (Fin n × Fin n))
    (found : EdgeSearch) : Prop where
  matrix : found.matrix = tabulate fun i j => if (i, j) ∈ seen ∧ edge i j = true then 1 else 0
  edges : found.edges = seen.countP fun pair => edge pair.1 pair.2

variable {R : Type} {working : String} {item : Fin n → ModuleReport R}

/-- Whether the module at one place depends on the module at another place. -/
def isEdge (working : String) (item : Fin n → ModuleReport R) (i j : Fin n) : Bool :=
  i ≠ j && (item i).dependsOn working (item j)

namespace EdgeSearch

/-- A search has seen nothing when it starts. -/
theorem hasSeen_start (edge : Fin n → Fin n → Bool) : (start n).HasSeen edge [] where
  matrix := by simp [start, tabulate, List.ofFn_const]
  edges := rfl

/-- A search looks at one more pair. -/
theorem HasSeen.look {seen : List (Fin n × Fin n)} {found : EdgeSearch}
    (sees : found.HasSeen (isEdge working item) seen) (x y : Fin n) :
    (look working (item x, x.val) (item y, y.val) found).HasSeen (isEdge working item)
      (seen ++ [(x, y)]) := by
  have known :
      (x.val ≠ y.val && (item x).dependsOn working (item y)) = isEdge working item x y := by
    simp [isEdge, Fin.val_inj]
  unfold EdgeSearch.look
  rw [known]
  cases edge : isEdge working item x y with
  | false =>
    -- The pair is no edge, so that it makes no difference whether it has been seen.
    refine ⟨sees.matrix.trans (congrArg tabulate ?_), ?_⟩
    · funext i j
      by_cases here : (i, j) = (x, y)
      · cases here
        simp [edge]
      · simp [here]
    · simp [sees.edges, edge]
  | true =>
    refine ⟨?_, ?_⟩
    · simp only [↓reduceIte, enter, sees.matrix, modify_tabulate]
      apply congrArg tabulate
      funext i j
      by_cases here : (i, j) = (x, y)
      · cases here
        simp [edge]
      · simp [here]
    · simp [enter, sees.edges, edge]

/-- A search that goes on has seen what it had seen, and what it has gone through since. -/
theorem HasSeen.foldl_look (pairs : List (Fin n × Fin n)) {seen : List (Fin n × Fin n)}
    {found : EdgeSearch} (sees : found.HasSeen (isEdge working item) seen) :
    (pairs.foldl (fun found pair =>
        EdgeSearch.look working (item pair.1, pair.1.val) (item pair.2, pair.2.val) found)
      found).HasSeen (isEdge working item) (seen ++ pairs) := by
  induction pairs generalizing seen found with
  | nil => simpa using sees
  | cons pair rest ih => simpa using ih (sees.look pair.1 pair.2)

end EdgeSearch

/-- The modules are gone through row by row. -/
theorem findEdges_ofFn (working : String) (item : Fin n → ModuleReport R) :
    findEdges working (List.ofFn item) = (rowByRow n).foldl (fun found pair =>
      found.look working (item pair.1, pair.1.val) (item pair.2, pair.2.val))
        (EdgeSearch.start n) := by
  have places : (List.ofFn item).zipIdx = (List.finRange n).map fun i => (item i, i.val) := by
    rw [zipIdx_ofFn, List.ofFn_eq_map]
  simp only [findEdges, places, rowByRow, List.foldl_flatMap, List.foldl_map, List.length_ofFn]

/-- A whole search has seen all pairs. -/
theorem hasSeen_findEdges (working : String) (item : Fin n → ModuleReport R) :
    (findEdges working (List.ofFn item)).HasSeen (isEdge working item) (rowByRow n) := by
  rw [findEdges_ofFn]
  exact (EdgeSearch.hasSeen_start (isEdge working item)).foldl_look (rowByRow n)

/-- The adjacency matrix, entry by entry. -/
theorem adjacencyMatrix_ofFn (working : String) (item : Fin n → ModuleReport R) :
    adjacencyMatrix working (List.ofFn item) = tabulate fun i j =>
      if i ≠ j ∧ (item i).dependsOn working (item j) = true then 1 else 0 := by
  rw [adjacencyMatrix, (hasSeen_findEdges working item).matrix]
  simp [mem_rowByRow, isEdge]

/-- The edges that a search counts are those of its matrix. -/
theorem edges_findEdges (working : String) (reports : List (ModuleReport R)) :
    (findEdges working reports).edges = edgeCount (adjacencyMatrix working reports) := by
  rw [← List.ofFn_get reports]
  have seen := hasSeen_findEdges working reports.get
  rw [adjacencyMatrix, seen.edges, seen.matrix, edgeCount, flatten_tabulate, List.countP_map]
  apply List.countP_congr
  intro pair _
  simp [mem_rowByRow]

/-- The adjacency matrix has a row for each module. -/
theorem length_adjacencyMatrix (working : String) (reports : List (ModuleReport R)) :
    (adjacencyMatrix working reports).length = reports.length := by
  rw [← List.ofFn_get reports, adjacencyMatrix_ofFn, length_tabulate, List.length_ofFn]

/-- The adjacency matrix has a column for each module. -/
theorem length_row_adjacencyMatrix {reports : List (ModuleReport R)} {row : List Nat}
    (member : row ∈ adjacencyMatrix working reports) : row.length = reports.length := by
  rw [← List.ofFn_get reports, adjacencyMatrix_ofFn, tabulate, List.mem_ofFn] at member
  obtain ⟨i, rfl⟩ := member
  exact List.length_ofFn

/-- The density that goes with an adjacency matrix is its own. -/
theorem measureAdjacency_result [Arithmetic R] (working : String)
    (reports : List (ModuleReport R)) :
    (measureAdjacency working reports).result =
      .ok (adjacencyMatrix working reports, density (adjacencyMatrix working reports)) := by
  rw [density, ← edges_findEdges, length_adjacencyMatrix]
  rfl

end Graph

end SourceMetrics
