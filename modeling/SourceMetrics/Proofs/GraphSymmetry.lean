import Mathlib.Logic.Equiv.Fin.Rotate
import SourceMetrics.Proofs.CoreNodes
import SourceMetrics.Proofs.DoubleOrder

/-! # Scores of a graph under renumbering and reversal

The scores of a graph do not depend on how its nodes are numbered, nor on the direction in which its
edges are drawn. Both are changes of the places of a matrix, `(i, j)` to `(p i, p j)` and `(i, j)`
to `(j, i)`. Nodes are connected in the changed graph as they are at the changed places, so the
visibility matrix moves along and the change cost counts as many pairs (`Graph.visibleAt_move`,
`Graph.reachCount_move`). A renumbering moves the core along (`Graph.coreNodes_relabel`): the sums
of a row or a column are summed in another order, and medians do not depend on it. A reversal swaps
fan-in and fan-out, of which a core node needs both (`Graph.coreNodes_transpose`).

A graph has scores if it has a node or its density is said to be zero. Without any node and with
another density there is no core to be measured, so there are no scores to keep
(`Graph.scoreMatrix_of_empty`).
-/

namespace SourceMetrics

namespace Graph

open SourceMetrics.Matrix

variable {n : Nat}

open Classical in
/-- The entries of the visibility matrix. -/
noncomputable def visibleAt (edge : Fin n → Fin n → Bool) (i j : Fin n) : Nat :=
  if i ≠ j ∧ Relation.TransGen (fun a b => edge a b = true) i j then 1 else 0

section Core

variable (p : Equiv.Perm (Fin n))

/-- The sum of words does not depend on their order. -/
theorem wordSum_of_perm {entries others : List Int} (perm : entries.Perm others) :
    wordSum entries = wordSum others := by
  rw [wordSum, wordSum, perm.foldr_eq]

private theorem fanInAt_relabel (matrix : Fin n → Fin n → Int) :
    fanInAt (fun i j => matrix (p i) (p j)) = fanInAt matrix ∘ p := by
  funext i
  exact wordSum_of_perm (p.ofFn_comp_perm (matrix (p i)))

private theorem fanOutAt_relabel (matrix : Fin n → Fin n → Int) :
    fanOutAt (fun i j => matrix (p i) (p j)) = fanOutAt matrix ∘ p :=
  fanInAt_relabel p fun j i => matrix i j

variable (R : Type) [Arithmetic R]

private theorem reachesAt_relabel [Arithmetic.OrdersWholes R] (sums : Fin n → Int) (i : Fin n) :
    reachesAt R (sums ∘ p) i = reachesAt R sums (p i) := by
  rw [reachesAt, reachesAt, Statistics.median_of_perm (p.ofFn_comp_perm sums)]
  rfl

/-- A renumbering takes the core to the core. -/
theorem coreNodes_relabel [Arithmetic.OrdersWholes R] (matrix : Fin n → Fin n → Int) (i : Fin n) :
    i ∈ coreNodes R (fun i j => matrix (p i) (p j)) ↔ p i ∈ coreNodes R matrix := by
  rw [coreNodes, coreNodes, Finset.mem_filter_univ, Finset.mem_filter_univ, fanInAt_relabel,
    fanOutAt_relabel, reachesAt_relabel, reachesAt_relabel]

/-- A reversal swaps the two conditions on the nodes of the core. -/
theorem coreNodes_transpose (matrix : Fin n → Fin n → Int) :
    coreNodes R (fun i j => matrix j i) = coreNodes R matrix := by
  apply Finset.filter_congr
  intro i _
  exact and_comm

end Core

section Scores

variable {R : Type} [Arithmetic R]

private theorem coreSize_relabel [Arithmetic.OrdersWholes R] (p : Equiv.Perm (Fin n))
    (visible : Fin n → Fin n → Nat) (density : Value R) :
    coreSize (tabulate fun i j => visible (p i) (p j)) density =
      coreSize (tabulate visible) density := by
  rw [coreSize_tabulate, coreSize_tabulate,
    Finset.card_equiv p (coreNodes_relabel p R fun i j => (visible i j : Int))]

private theorem coreShare_transpose (matrix : Fin n → Fin n → Int) :
    (coreShare (tabulate fun i j => matrix j i) : Except Fault R) = coreShare (tabulate matrix) := by
  by_cases empty : n = 0
  · subst empty
    rfl
  · rw [coreShare_tabulate _ empty, coreShare_tabulate _ empty, coreNodes_transpose]

private theorem coreSize_transpose (visible : Fin n → Fin n → Nat) (density : Value R) :
    coreSize (tabulate fun i j => visible j i) density = coreSize (tabulate visible) density := by
  rw [coreSize, coreSize, toWholes_tabulate, toWholes_tabulate,
    coreShare_transpose fun i j => Int.ofNat (visible i j)]

private theorem scoreMatrix_result {matrix : Value R} {edges : List (List Bool)}
    (read : Matrix.edges matrix = .ok edges) (density : Value R) :
    (scoreMatrix matrix density).result = (closure edges density).mapError .fault := by
  rw [scoreMatrix, read]
  change (closeAndScore edges density).result = _
  rw [closeAndScore]
  cases closure edges density <;> rfl

section Places

variable (move : Fin n × Fin n ≃ Fin n × Fin n) {edge moved : Fin n → Fin n → Bool}
  (diagonal : ∀ place, (move place).1 = (move place).2 ↔ place.1 = place.2)
  (leads : ∀ place, Relation.TransGen (fun a b => moved a b = true) place.1 place.2 ↔
    Relation.TransGen (fun a b => edge a b = true) (move place).1 (move place).2)

include diagonal leads

/-- What is visible in the changed graph is visible at the changed places. -/
theorem visibleAt_move (i j : Fin n) :
    visibleAt moved i j = visibleAt edge (move (i, j)).1 (move (i, j)).2 := by
  classical
  apply if_congr _ rfl rfl
  rw [Ne, Ne, diagonal, leads (i, j)]

/-- As many pairs are connected in the changed graph. -/
theorem reachCount_move : reachCount (tabulate moved) = reachCount (tabulate edge) := by
  classical
  rw [reachCount_tabulate, reachCount_tabulate]
  apply Finset.card_equiv move
  intro place
  rw [Finset.mem_filter_univ, Finset.mem_filter_univ, diagonal, leads]

/-- If a graph is connected as another one is at changed places, and the change leaves the core size
alone, then both have the same scores. -/
theorem scoreMatrix_move {matrix other : Value R} (read : edges matrix = .ok (tabulate edge))
    (readMoved : edges other = .ok (tabulate moved)) {density : Value R}
    (measurable : n ≠ 0 ∨ density.isZero = true)
    (core : ∀ visible : Fin n → Fin n → Nat,
      coreSize (tabulate fun i j => visible (move (i, j)).1 (move (i, j)).2) density =
        coreSize (tabulate visible) density) :
    ∃ (visible : Fin n → Fin n → Nat) (cost size : R),
      (scoreMatrix matrix density).result = .ok ⟨tabulate visible, cost, size⟩ ∧
      (scoreMatrix other density).result =
        .ok ⟨tabulate fun i j => visible (move (i, j)).1 (move (i, j)).2, cost, size⟩ := by
  have cost : (changeCost (tabulate moved) : R) = changeCost (tabulate edge) := by
    rw [changeCost, changeCost, reachCount_move move diagonal leads, length_tabulate,
      length_tabulate]
  have visible : visibility (tabulate edge) = tabulate (visibleAt edge) := visibility_tabulate edge
  have visibleMoved : visibility (tabulate moved) =
      tabulate fun i j => visibleAt edge (move (i, j)).1 (move (i, j)).2 := by
    rw [visibility_tabulate]
    exact congrArg tabulate (funext₂ (visibleAt_move move diagonal leads))
  rw [scoreMatrix_result read, scoreMatrix_result readMoved, closure_eq, closure_eq, visible,
    visibleMoved, cost, core, coreSize_tabulate]
  by_cases zero : density.isZero = true
  · rw [if_pos zero]
    exact ⟨_, _, _, rfl, rfl⟩
  · rw [if_neg zero, if_neg (measurable.resolve_right zero)]
    exact ⟨_, _, _, rfl, rfl⟩

end Places

/-- A graph without nodes has no scores, unless its density is said to be zero. -/
theorem scoreMatrix_of_empty {matrix density : Value R} (read : edges matrix = .ok [])
    (nonzero : density.isZero = false) :
    (scoreMatrix matrix density).result = .error (.fault .noColumns) := by
  have noCore : coreSize [] density = .error .noColumns := by
    have size := coreSize_tabulate (R := R) (n := 0) (fun _ _ => 0) density
    rwa [if_neg (by simp [nonzero]), if_pos rfl] at size
  rw [scoreMatrix_result read, closure_eq]
  change ((coreSize [] density).map _).mapError _ = _
  rw [noCore]
  rfl

private theorem transGen_relabel (p : Equiv.Perm (Fin n)) (edge : Fin n → Fin n → Bool)
    (i j : Fin n) :
    Relation.TransGen (fun a b => edge (p a) (p b) = true) i j ↔
      Relation.TransGen (fun a b => edge a b = true) (p i) (p j) := by
  constructor
  · exact Relation.TransGen.lift (p := fun a b => edge a b = true) p (fun _ _ => id) i j
  · -- The way back is along the inverse permutation.
    intro path
    have back : (fun a b => edge a b = true) ≤
        Function.onFun (fun a b => edge (p a) (p b) = true) p.symm := by
      intro a b follows
      simpa [Function.onFun] using follows
    simpa [Function.onFun] using Relation.TransGen.lift p.symm back (p i) (p j) path

/-- **Scores do not depend on the numbering of the nodes.** Let one square matrix of numbers have
at `(i, j)` the entry that another one has at `(p i, p j)`, for a permutation `p`. Then its
visibility matrix is that of the other one with the same change of places, and the change cost and
the core size are the same, for every density if there is a node, and for a density of zero in any
case. -/
theorem relabelling_keeps_scores [Arithmetic.OrdersWholes R] (p : Equiv.Perm (Fin n))
    {matrix relabelled : Value R} {entry : Fin n → Fin n → Value R} {number : Fin n → Fin n → R}
    (isSquare : matrix.IsSquareOf entry)
    (numeric : ∀ i j, (entry i j).entryReal = .ok (number i j))
    (isRelabelled : relabelled.IsSquareOf fun i j => entry (p i) (p j)) {density : Value R}
    (measurable : n ≠ 0 ∨ density.isZero = true) :
    ∃ (visible : Fin n → Fin n → Nat) (cost size : R),
      (scoreMatrix matrix density).result = .ok ⟨tabulate visible, cost, size⟩ ∧
      (scoreMatrix relabelled density).result =
        .ok ⟨tabulate fun i j => visible (p i) (p j), cost, size⟩ := by
  let edge : Fin n → Fin n → Bool := fun i j => !Arithmetic.isZero (number i j)
  have read : edges relabelled = .ok (tabulate fun i j => edge (p i) (p j)) :=
    edges_square isRelabelled fun i j => numeric (p i) (p j)
  exact scoreMatrix_move (p.prodCongr p) (fun _ => p.apply_eq_iff_eq)
    (fun place => transGen_relabel p edge place.1 place.2) (edges_square isSquare numeric) read
    measurable fun visible => coreSize_relabel p visible density

/-- A node with a loop and edges to two others. -/
def fork : Fin 3 → Fin 3 → Int :=
  ![![4, 1, -2], ![0, 0, 0], ![0, 0, 0]]

/-- Whole numbers as a matrix among the values. -/
def rowsOf (number : Fin n → Fin n → Int) : Value Binary64 :=
  .list (List.ofFn fun i => .tuple (List.ofFn fun j => .int (number i j)))

/-- The rows of a square of whole numbers are read as that square. -/
theorem isSquareOf_rowsOf (number : Fin n → Fin n → Int) :
    (rowsOf number).IsSquareOf fun i j => .int (number i j) :=
  ⟨_, rfl, fun _ => rfl⟩

/-- A whole number that is not too large for a double is an entry of a matrix. -/
theorem entryReal_of_inRange {number : Int}
    (inRange : Arithmetic.isInfinite (Arithmetic.ofInt number : Binary64) = false) :
    (Value.int number : Value Binary64).entryReal = .ok (Arithmetic.ofInt number) := by
  change (Number.int number : Number Binary64).toReal = _
  rw [Number.toReal, Arithmetic.ofInt?, inRange]
  rfl

private theorem entryReal_fork (i j : Fin 3) :
    (Value.int (fork i j) : Value Binary64).entryReal = .ok (Arithmetic.ofInt (fork i j)) := by
  have inRange : ∀ i j, Arithmetic.isInfinite (Arithmetic.ofInt (fork i j) : Binary64) = false := by
    decide
  exact entryReal_of_inRange (inRange i j)

/-- The visibility matrix of the fork, whatever its scores are. -/
theorem visible_fork {visible : Fin 3 → Fin 3 → Nat} {cost size : Binary64}
    (scored : (scoreMatrix (rowsOf fork) (.int 1)).result = .ok ⟨tabulate visible, cost, size⟩) :
    visible = ![![0, 1, 1], ![0, 0, 0], ![0, 0, 0]] := by
  have evaluated : (scoreMatrix (rowsOf fork) (.int 1)).result.map Closure.visibility =
      .ok [[0, 1, 1], [0, 0, 0], [0, 0, 0]] := rfl
  rw [scored] at evaluated
  exact tabulate_injective (Except.ok.inj evaluated)

/-- Renumbered in a circle, the last node of the fork is the one with the edges. -/
theorem relabelling_keeps_scores_fork : ∃ cost size : Binary64,
    (scoreMatrix (rowsOf fork) (.int 1)).result =
      .ok ⟨[[0, 1, 1], [0, 0, 0], [0, 0, 0]], cost, size⟩ ∧
    (scoreMatrix (rowsOf fun i j => fork (finRotate 3 i) (finRotate 3 j)) (.int 1)).result =
      .ok ⟨[[0, 0, 0], [0, 0, 0], [1, 1, 0]], cost, size⟩ := by
  obtain ⟨visible, cost, size, scored, relabelled⟩ :=
    relabelling_keeps_scores (finRotate 3) (isSquareOf_rowsOf fork) entryReal_fork
      (isSquareOf_rowsOf fun i j => fork (finRotate 3 i) (finRotate 3 j)) (.inl (by decide))
  obtain rfl := visible_fork scored
  exact ⟨cost, size, scored, relabelled⟩

/-- The graph without nodes. -/
def noNodes : Fin 0 → Fin 0 → Int :=
  ![]

/-- The graph without nodes has no scores with the density one, however it is numbered. -/
theorem relabelling_without_nodes :
    (rowsOf noNodes).IsSquareOf (fun i j => .int (noNodes i j)) ∧
    (scoreMatrix (rowsOf noNodes) (.int 1)).result = .error (.fault .noColumns) ∧
    (scoreMatrix (rowsOf fun i j => noNodes (finRotate 0 i) (finRotate 0 j)) (.int 1)).result =
      .error (.fault .noColumns) :=
  ⟨isSquareOf_rowsOf noNodes, scoreMatrix_of_empty rfl rfl, scoreMatrix_of_empty rfl rfl⟩

/-- **Scores do not depend on the direction of the edges.** The transposed matrix has the transposed
visibility matrix, with the same change cost and core size, for every density if there is a node,
and for a density of zero in any case. And of any matrix, the core is as large if the sums of its
columns are taken for those of its rows and the other way round. -/
theorem reversal_keeps_scores {matrix reversed : Value R} {entry : Fin n → Fin n → Value R}
    {number : Fin n → Fin n → R} (isSquare : matrix.IsSquareOf entry)
    (numeric : ∀ i j, (entry i j).entryReal = .ok (number i j))
    (isReversed : reversed.IsSquareOf fun i j => entry j i) {density : Value R}
    (measurable : n ≠ 0 ∨ density.isZero = true) :
    (∃ (visible : Fin n → Fin n → Nat) (cost size : R),
      (scoreMatrix matrix density).result = .ok ⟨tabulate visible, cost, size⟩ ∧
      (scoreMatrix reversed density).result =
        .ok ⟨tabulate fun i j => visible j i, cost, size⟩) ∧
    ∀ sums : Fin n → Fin n → Int,
      (coreShare (tabulate fun i j => sums j i) : Except Fault R) = coreShare (tabulate sums) := by
  refine ⟨?_, coreShare_transpose⟩
  have read : edges reversed = .ok (tabulate fun i j => !Arithmetic.isZero (number j i)) :=
    edges_square isReversed fun i j => numeric j i
  exact scoreMatrix_move (Equiv.prodComm _ _) (fun _ => eq_comm)
    (fun _ => Relation.transGen_swap) (edges_square isSquare numeric) read measurable
    fun visible => coreSize_transpose visible density

/-- Reversed, the fork has edges from two nodes to the first one. -/
theorem reversal_keeps_scores_fork : ∃ cost size : Binary64,
    (scoreMatrix (rowsOf fork) (.int 1)).result =
      .ok ⟨[[0, 1, 1], [0, 0, 0], [0, 0, 0]], cost, size⟩ ∧
    (scoreMatrix (rowsOf fun i j => fork j i) (.int 1)).result =
      .ok ⟨[[0, 0, 0], [1, 0, 0], [1, 0, 0]], cost, size⟩ := by
  obtain ⟨⟨visible, cost, size, scored, reversed⟩, -⟩ :=
    reversal_keeps_scores (isSquareOf_rowsOf fork) entryReal_fork
      (isSquareOf_rowsOf fun i j => fork j i) (.inl (by decide))
  obtain rfl := visible_fork scored
  exact ⟨cost, size, scored, reversed⟩

/-- The graph without nodes is its own reverse, and has no scores with the density one. -/
theorem reversal_without_nodes :
    (rowsOf noNodes).IsSquareOf (fun i j => .int (noNodes j i)) ∧
    (scoreMatrix (rowsOf noNodes) (.int 1)).result = .error (.fault .noColumns) ∧
    (scoreMatrix (rowsOf fun i j => noNodes j i) (.int 1)).result =
      .error (.fault .noColumns) :=
  ⟨isSquareOf_rowsOf fun i j => noNodes j i, scoreMatrix_of_empty rfl rfl,
    scoreMatrix_of_empty rfl rfl⟩

end Scores

end Graph

end SourceMetrics
