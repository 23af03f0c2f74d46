import Mathlib.Algebra.BigOperators.Fin
import Mathlib.Data.Fintype.BigOperators
import SourceMetrics.Graph.Distance

/-! # Square matrices by their entries

The graph operations work on lists of rows. A square matrix is as well given by a function from two
positions to an entry, and `Matrix.tabulate` lists the rows of that function. Every operation on
rows that the graph operations are made of has a counterpart on entries, so a round of a closing can
be described, and reasoned about, entry by entry (`Graph.relax_tabulate`, `Graph.close_tabulate`).
-/

namespace SourceMetrics

namespace Matrix

variable {n : Nat} {α β γ : Type}

/-- The rows of the square matrix with given entries. -/
def tabulate (entry : Fin n → Fin n → α) : List (List α) :=
  List.ofFn fun i => List.ofFn (entry i)

@[simp] theorem length_tabulate (entry : Fin n → Fin n → α) : (tabulate entry).length = n := by
  simp [tabulate]

/-- A square matrix is known by its rows. -/
theorem tabulate_injective {entry other : Fin n → Fin n → α}
    (same : tabulate entry = tabulate other) :
    entry = other :=
  funext fun i => List.ofFn_injective (congrFun (List.ofFn_injective same) i)

theorem zipIdx_ofFn (item : Fin n → α) :
    (List.ofFn item).zipIdx = List.ofFn fun i => (item i, i.val) := by
  apply List.ext_getElem
  · simp
  · intro position _ _
    simp

/-- All cells, row by row. -/
def rowByRow (n : Nat) : List (Fin n × Fin n) :=
  (List.finRange n).flatMap fun i => (List.finRange n).map fun j => (i, j)

/-- Going row by row leaves out no cell. -/
theorem mem_rowByRow (cell : Fin n × Fin n) : cell ∈ rowByRow n := by
  simp [rowByRow]

/-- The entries in the order of the rows. -/
theorem flatten_tabulate (entry : Fin n → Fin n → α) :
    (tabulate entry).flatten = (rowByRow n).map fun cell => entry cell.1 cell.2 := by
  rw [rowByRow, List.map_flatMap, List.flatMap_def, tabulate, List.ofFn_eq_map]
  simp only [List.ofFn_eq_map, List.map_map]
  rfl

/-- Setting an entry leaves the other entries as they are. -/
theorem modify_tabulate (entry : Fin n → Fin n → α) (x y : Fin n) (value : α) :
    ((tabulate entry).modify x fun row => row.set y value) =
      tabulate fun i j => if (i, j) = (x, y) then value else entry i j := by
  apply List.ext_getElem
  · simp
  · intro i _ _
    apply List.ext_getElem
    · simp [tabulate, List.getElem_modify, apply_ite List.length]
    · intro j _ _
      by_cases row : x.val = i
      · simp [tabulate, row, List.getElem_set, Fin.ext_iff, eq_comm]
      · simp [tabulate, row, Fin.ext_iff, Ne.symm row]

theorem getD_ofFn (item : Fin n → α) (i : Fin n) (default : α) :
    (List.ofFn item).getD i default = item i := by
  simp [List.getD_eq_getElem?_getD]

theorem zipWith_ofFn (combine : α → β → γ) (first : Fin n → α) (second : Fin n → β) :
    List.zipWith combine (List.ofFn first) (List.ofFn second) =
      List.ofFn fun i => combine (first i) (second i) := by
  apply List.ext_getElem
  · simp
  · intro position _ _
    simp

/-- Items that pass a test are counted by a sum over the positions. -/
theorem countP_ofFn (test : α → Bool) (item : Fin n → α) :
    (List.ofFn item).countP test = ∑ i, if test (item i) then 1 else 0 := by
  induction n with
  | zero => simp
  | succ n ih => rw [List.ofFn_succ, List.countP_cons, ih, Fin.sum_univ_succ, Nat.add_comm]

/-- Changing every row is changing the rows of entries. -/
theorem map_tabulate (change : List α → List β) (entry : Fin n → Fin n → α)
    (changed : Fin n → Fin n → β)
    (rows : ∀ i, change (List.ofFn (entry i)) = List.ofFn (changed i)) :
    (tabulate entry).map change = tabulate changed := by
  rw [tabulate, List.map_ofFn]
  exact congrArg List.ofFn (funext rows)

/-- Changing every entry by its position. -/
theorem zipIdx_map_tabulate (change : Nat → Nat → α → β) (entry : Fin n → Fin n → α) :
    ((tabulate entry).zipIdx.map fun row =>
        row.1.zipIdx.map fun item => change row.2 item.2 item.1) =
      tabulate fun i j => change i j (entry i j) := by
  rw [tabulate, zipIdx_ofFn, List.map_ofFn]
  apply congrArg List.ofFn
  funext i
  rw [Function.comp_apply, zipIdx_ofFn, List.map_ofFn]
  rfl

/-- The entries that pass a test are as many as the positions at which they stand. -/
theorem countP_flatten_tabulate (test : α → Bool) (entry : Fin n → Fin n → α) :
    (tabulate entry).flatten.countP test =
      (Finset.univ.filter fun place : Fin n × Fin n => test (entry place.1 place.2)).card := by
  rw [tabulate, List.countP_flatten, List.map_ofFn, List.sum_ofFn, Finset.card_filter,
    Fintype.sum_prod_type]
  exact Finset.sum_congr rfl fun i _ => countP_ofFn test (entry i)

end Matrix

namespace Graph

open SourceMetrics.Matrix

variable {n : Nat} {W : Type} [PathWeight W]

/-- Let ways by a node count, for distances given by their entries. -/
def relaxAt (distance : Fin n → Fin n → W) (node : Fin n) : Fin n → Fin n → W := fun i j =>
  PathWeight.shorter (distance i j) (PathWeight.join (distance i node) (distance node j))

/-- The first distances are those of single steps and of staying. -/
theorem seed_tabulate (edge : Fin n → Fin n → Bool) :
    (seed (tabulate edge) : List (List W)) = tabulate fun i j =>
      if edge i j || i = j then PathWeight.step else PathWeight.unreachable := by
  refine (zipIdx_map_tabulate (fun i j (mark : Bool) =>
    if mark || decide (i = j) then PathWeight.step else PathWeight.unreachable) edge).trans ?_
  simp only [Fin.val_inj]

/-- A round computes each entry from the entries as they were before the round. -/
theorem relax_tabulate (distance : Fin n → Fin n → W) (node : Fin n) :
    relax (tabulate distance) node = tabulate (relaxAt distance node) := by
  have onward : (tabulate distance).getD node [] = List.ofFn (distance node) :=
    getD_ofFn (fun i => List.ofFn (distance i)) node []
  unfold relax
  rw [onward]
  apply map_tabulate
  intro i
  rw [getD_ofFn, zipWith_ofFn]
  rfl

private theorem closeOver_tabulate (nodes : List (Fin n)) (distance : Fin n → Fin n → W) :
    closeOver (nodes.map Fin.val) (tabulate distance) =
      tabulate (nodes.foldl relaxAt distance) := by
  induction nodes generalizing distance with
  | nil => rfl
  | cons node rest ih =>
    have first : closeOver ((node :: rest).map Fin.val) (tabulate distance) =
        closeOver (rest.map Fin.val) (relax (tabulate distance) node) := rfl
    rw [first, relax_tabulate, ih, List.foldl_cons]

/-- Closing goes through all positions, in ascending order. -/
theorem close_tabulate (distance : Fin n → Fin n → W) :
    close (tabulate distance) = tabulate ((List.finRange n).foldl relaxAt distance) := by
  rw [close, length_tabulate, ← List.map_coe_finRange_eq_range, closeOver_tabulate]

end Graph

end SourceMetrics
