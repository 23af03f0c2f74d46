import SourceMetrics.Graph.Closure
import SourceMetrics.Proofs.Outcome
import SourceMetrics.Proofs.Visibility

/-! # The core, node by node

The core of a project is counted on rows and columns of a matrix. On a square matrix every node has
one fan-in and one fan-out, so the core is a set of nodes (`Graph.coreNodes`), and its share is the
number of these nodes among all (`Graph.coreShare_tabulate`). A graph has its scores unless it is
empty and its density is said not to be zero (`Graph.coreSize_tabulate`).
-/

namespace SourceMetrics

namespace Graph

open SourceMetrics.Matrix

variable {n : Nat}

/-- The edges of a matrix are its entries other than zero. -/
theorem toEdges_tabulate (matrix : Fin n → Fin n → Nat) :
    toEdges (tabulate matrix) = tabulate fun i j => matrix i j != 0 := by
  apply map_tabulate
  intro i
  rw [List.map_ofFn]
  rfl

/-- The entries of a matrix as whole numbers. -/
theorem toWholes_tabulate (matrix : Fin n → Fin n → Nat) :
    toWholes (tabulate matrix) = tabulate fun i j => Int.ofNat (matrix i j) := by
  apply map_tabulate
  intro i
  rw [List.map_ofFn]
  rfl

private theorem width_tabulate {α : Type} (matrix : Fin n → Fin n → α) :
    width (tabulate matrix) = n := by
  cases n with
  | zero => rfl
  | succ n => simp [width, tabulate]

/-- The sum of the row of a node. -/
def fanInAt (matrix : Fin n → Fin n → Int) (i : Fin n) : Int :=
  wordSum (List.ofFn (matrix i))

/-- The sum of the column of a node. -/
def fanOutAt (matrix : Fin n → Fin n → Int) (j : Fin n) : Int :=
  wordSum (List.ofFn fun i => matrix i j)

private theorem fanIn_tabulate (matrix : Fin n → Fin n → Int) :
    fanIn (tabulate matrix) = List.ofFn (fanInAt matrix) := by
  rw [fanIn, tabulate, List.map_ofFn]
  rfl

private theorem column_tabulate (matrix : Fin n → Fin n → Int) (j : Fin n) :
    column (tabulate matrix) j = List.ofFn fun i => matrix i j := by
  rw [column, tabulate, List.map_ofFn]
  apply congrArg List.ofFn
  funext i
  exact getD_ofFn (matrix i) j 0

private theorem fanOut_tabulate (matrix : Fin n → Fin n → Int) :
    fanOut (tabulate matrix) = List.ofFn (fanOutAt matrix) := by
  rw [fanOut, width_tabulate, ← List.map_coe_finRange_eq_range, List.map_map, List.ofFn_eq_map]
  apply List.map_congr_left
  intro j _
  rw [Function.comp_apply, column_tabulate]
  rfl

private theorem pairUp_ofFn {α : Type} (first second : Fin n → α) :
    pairUp (List.ofFn first) (List.ofFn second) = .ok (List.ofFn fun i => (first i, second i)) := by
  have level : (List.ofFn first).length = (List.ofFn second).length := by simp
  unfold pairUp
  rw [if_pos level, List.zip, zipWith_ofFn]

section Core

variable (R : Type) [Arithmetic R]

/-- Whether the sum of a node reaches the median of the sums of all nodes. -/
def reachesAt (sums : Fin n → Int) (i : Fin n) : Bool :=
  !Arithmetic.less (Arithmetic.ofInt (sums i) : R)
    (Statistics.median ((List.ofFn sums).map Arithmetic.ofInt))

private theorem reachesMedian_ofFn (sums : Fin n → Int) :
    reachesMedian R (List.ofFn sums) = List.ofFn (reachesAt R sums) := by
  rw [reachesMedian, List.map_map, List.map_ofFn]
  rfl

/-- The nodes of which both sums reach their median. -/
def coreNodes (matrix : Fin n → Fin n → Int) : Finset (Fin n) :=
  Finset.univ.filter fun i =>
    reachesAt R (fanInAt matrix) i = true ∧ reachesAt R (fanOutAt matrix) i = true

private theorem coreCount_tabulate (matrix : Fin n → Fin n → Int) (occupied : n ≠ 0) :
    coreCount R (tabulate matrix) = .ok (coreNodes R matrix).card := by
  have filled : (tabulate matrix).isEmpty = false := by
    rw [List.isEmpty_eq_false_iff, ← List.length_pos_iff, length_tabulate]
    exact Nat.pos_of_ne_zero occupied
  simp only [coreCount, filled, fanIn_tabulate, fanOut_tabulate, reachesMedian_ofFn, pairUp_ofFn]
  change Except.ok _ = _
  rw [countP_ofFn, coreNodes, Finset.card_filter]
  simp only [Bool.and_eq_true]

variable {R}

/-- The share of the core on a square matrix that is not empty. -/
theorem coreShare_tabulate (matrix : Fin n → Fin n → Int) (occupied : n ≠ 0) :
    coreShare (tabulate matrix) =
      .ok (Statistics.percentage (coreNodes R matrix).card n : R) := by
  rw [coreShare, coreCount_tabulate R matrix occupied, length_tabulate]
  rfl

/-- The core is the share of the core nodes, with nothing to measure where there are no edges. -/
theorem coreSize_tabulate (visible : Fin n → Fin n → Nat) (density : Value R) :
    coreSize (tabulate visible) density =
      if density.isZero then .ok Arithmetic.zero
      else if n = 0 then .error .noColumns
      else .ok (Statistics.percentage (coreNodes R fun i j => (visible i j : Int)).card n) := by
  unfold coreSize
  by_cases zero : density.isZero = true
  · rw [if_pos zero, if_pos zero]
  · rw [if_neg zero, if_neg zero, toWholes_tabulate]
    by_cases empty : n = 0
    · subst empty
      rfl
    · rw [if_neg empty]
      exact coreShare_tabulate _ empty

/-- A closure consists of the visibility, its change cost and its core, of which only the core may
fail. -/
theorem closure_eq (edges : List (List Bool)) (density : Value R) :
    closure edges density = (coreSize (visibility edges) density).map fun size =>
      { visibility := visibility edges, changeCost := changeCost edges, coreSize := size } :=
  bind_ok _ _

/-- A graph has its scores, provided that an empty one counts as a graph without edges. -/
theorem exists_closure_tabulate (edge : Fin n → Fin n → Bool) {density : Value R}
    (empty : n = 0 → density.isZero = true) :
    ∃ c, closure (tabulate edge) density = .ok c := by
  classical
  rw [closure_eq, visibility_tabulate, coreSize_tabulate]
  by_cases zero : density.isZero = true
  · rw [if_pos zero]
    exact ⟨_, rfl⟩
  · rw [if_neg zero, if_neg fun missing => zero (empty missing)]
    exact ⟨_, rfl⟩

end Core

end Graph

end SourceMetrics
