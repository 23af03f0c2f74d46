import Mathlib.Data.Fin.VecNotation
import Mathlib.Logic.Relation
import SourceMetrics.Graph.Visibility
import SourceMetrics.Proofs.Exact
import SourceMetrics.Proofs.MatrixReading
import SourceMetrics.Proofs.ShortestWalk

/-! # Visibility is reachability

A graph is closed from distances that are one along edges and from each node to itself. A closed
distance is finite exactly if some walk is (`Graph.least_eq_top_iff`), and a walk is finite if
each of its steps follows an edge or stays where it is. So the finite entries are the pairs of
nodes of which the second can be reached from the first (`Graph.reach_tabulate`), the visibility
matrix marks those of them that are not on the diagonal, and the change cost counts all of them
(`Graph.visibility_marks_reachable`).
-/

namespace SourceMetrics

namespace Graph

open SourceMetrics.Matrix

variable {n : Nat}

/-- The distances along single edges. -/
def seedAt (edge : Fin n → Fin n → Bool) : Fin n → Fin n → Distance := fun i j =>
  if edge i j || i = j then PathWeight.step else PathWeight.unreachable

/-- The first lengths are those of single steps and of staying, which both count as one. -/
theorem lengths_seedAt (edge : Fin n → Fin n → Bool) (i j : Fin n) :
    lengths (seedAt edge) i j = if edge i j = true ∨ i = j then 1 else ⊤ := by
  by_cases connected : edge i j = true ∨ i = j
  · have marked : (edge i j || decide (i = j)) = true := by simpa using connected
    simp only [lengths, seedAt, marked, connected, ↓reduceIte]
    rfl
  · have unmarked : (edge i j || decide (i = j)) = false := by simpa using connected
    simp only [lengths, seedAt, unmarked, connected, ↓reduceIte]
    rfl

/-- A step is finite if it follows an edge or stays where it is. -/
theorem lengths_seedAt_ne_top_iff (edge : Fin n → Fin n → Bool) (i j : Fin n) :
    lengths (seedAt edge) i j ≠ ⊤ ↔ Relation.ReflGen (fun a b => edge a b = true) i j := by
  rw [lengths_seedAt, Relation.reflGen_iff]
  by_cases connected : edge i j = true ∨ i = j
  · rw [if_pos connected]
    exact iff_of_true ENat.one_ne_top (connected.symm.imp_left Eq.symm)
  · rw [if_neg connected]
    exact iff_of_false (fun finite => finite rfl) fun other =>
      connected (other.symm.imp_right Eq.symm)

private theorem isReachable_close_iff (edge : Fin n → Fin n → Bool) (i j : Fin n) :
    ((List.finRange n).foldl relaxAt (seedAt edge) i j).isReachable = true ↔
      Relation.ReflTransGen (fun a b => edge a b = true) i j := by
  have least := isLeast_walk_close (seedAt edge) i j
  rw [Distance.isReachable_iff, ← Relation.transGen_reflGen]
  refine (not_congr (least_eq_top_iff least)).trans ?_
  rw [not_not]
  simp only [lengths_seedAt_ne_top_iff]

open Classical in
/-- The finite entries of the closed distances are the pairs that edges connect. -/
theorem reach_tabulate (edge : Fin n → Fin n → Bool) :
    reach (tabulate edge) = tabulate fun i j =>
      decide (Relation.ReflTransGen (fun a b => edge a b = true) i j) := by
  rw [reach, distances, seed_tabulate, close_tabulate]
  apply map_tabulate
  intro i
  rw [List.map_ofFn]
  apply congrArg List.ofFn
  funext j
  rw [Bool.eq_iff_iff, decide_eq_true_iff]
  exact isReachable_close_iff edge i j

open Classical in
/-- A node sees the other nodes that it reaches by edges. -/
theorem visibility_tabulate (edge : Fin n → Fin n → Bool) :
    visibility (tabulate edge) = tabulate fun i j =>
      if i ≠ j ∧ Relation.TransGen (fun a b => edge a b = true) i j then 1 else 0 := by
  rw [visibility, reach_tabulate]
  refine (zipIdx_map_tabulate (fun i j (reached : Bool) =>
    if reached && decide (i ≠ j) then 1 else 0) _).trans ?_
  apply congrArg tabulate
  funext i j
  apply if_congr _ rfl rfl
  rw [Bool.and_eq_true, decide_eq_true_iff, decide_eq_true_iff,
    Relation.reflTransGen_iff_eq_or_transGen, Ne, Fin.val_inj]
  constructor
  · rintro ⟨same | path, different⟩
    · exact absurd same.symm different
    · exact ⟨different, path⟩
  · rintro ⟨different, path⟩
    exact ⟨.inr path, different⟩

open Classical in
/-- The pairs that are counted are those of a node and one that it reaches, or itself. -/
theorem reachCount_tabulate (edge : Fin n → Fin n → Bool) :
    reachCount (tabulate edge) = (Finset.univ.filter fun pair : Fin n × Fin n =>
      pair.1 = pair.2 ∨ Relation.TransGen (fun a b => edge a b = true) pair.1 pair.2).card := by
  rw [reachCount, reach_tabulate, countP_flatten_tabulate]
  apply congrArg Finset.card
  apply Finset.filter_congr
  intro pair _
  rw [id, decide_eq_true_iff, Relation.reflTransGen_iff_eq_or_transGen, eq_comm]

end Graph

namespace Statistics

variable {R : Type} [Arithmetic R]

/-- A count is a percentage of a limit as any other value is, if the ratio is in range. -/
theorem percentify_count (count limit : Nat)
    (inRange : Arithmetic.isInfinite (Arithmetic.quotient count limit : R) = false) :
    percentify (.int count) (.int limit) = .ok (percentage count limit : R) := by
  by_cases zero : limit = 0
  · subst zero
    rfl
  · have nonzero : (Value.int limit : Value R).isZero = false := by
      simpa [Value.isZero, Value.number?, Number.isZero] using zero
    have divided : (Value.int count : Value R).dividedBy (.int limit) =
        .ok (Arithmetic.quotient count limit) := by
      simp only [Value.dividedBy, Value.arithmetic, Value.number?, Number.div, inRange]
      rfl
    rw [percentify, nonzero, divided, percentage, if_neg zero]
    rfl

end Statistics

namespace Graph

open SourceMetrics.Matrix

variable {R : Type} [Arithmetic R] {n : Nat}

open Classical in
/-- **Visibility is reachability.** For a square matrix of numbers, the visibility matrix has a one
where a path of one or more edges leads from a node to another one, and a zero everywhere else. The
change cost is the percentage of the pairs of which the second node is the first one or can be
reached from it. -/
theorem visibility_marks_reachable {matrix : Value R} {entry : Fin n → Fin n → Value R}
    {number : Fin n → Fin n → R} (isSquare : matrix.IsSquareOf entry)
    (numeric : ∀ i j, (entry i j).entryReal = .ok (number i j)) :
    let leads := Relation.TransGen fun i j => Arithmetic.isZero (number i j) = false
    let pairs := (Finset.univ.filter fun pair : Fin n × Fin n =>
      pair.1 = pair.2 ∨ leads pair.1 pair.2).card
    ∃ cost : R,
      (Matrix.edges matrix).map (fun edges => (visibility edges, (changeCost edges : R))) =
        .ok (tabulate fun i j => if i ≠ j ∧ leads i j then 1 else 0, cost) ∧
      cost = Statistics.percentage pairs (n * n) ∧
      (Arithmetic.isInfinite (Arithmetic.quotient pairs (n * n : Nat) : R) = false →
        Statistics.percentify (.int pairs) (.int (n * n : Nat)) = .ok cost) := by
  intro leads pairs
  have leads_iff : (Relation.TransGen fun i j => (!Arithmetic.isZero (number i j)) = true) =
      leads := by
    simp only [leads, Bool.not_eq_true']
  refine ⟨Statistics.percentage pairs (n * n), ?_, rfl, Statistics.percentify_count pairs (n * n)⟩
  rw [edges_square isSquare numeric, Except.map, visibility_tabulate, changeCost,
    reachCount_tabulate, length_tabulate, leads_iff]

/-- Three nodes on a cycle, one of them with a loop, and a node apart. -/
def cycleAndPoint : Fin 4 → Fin 4 → Int :=
  ![![7, 2, 0, 0], ![0, 0, -1, 0], ![3, 0, 0, 0], ![0, 0, 0, 0]]

open Classical in
/-- On the cycle every node sees the two others, and nothing sees the node apart. -/
theorem visibility_marks_reachable_cycle :
    (tabulate fun i j : Fin 4 => if i ≠ j ∧
      Relation.TransGen (fun a b => Arithmetic.isZero
        (.finite (cycleAndPoint a b) : Exact ℚ .lines) = false) i j then 1 else 0) =
      [[0, 1, 1, 0], [1, 0, 1, 0], [1, 1, 0, 0], [0, 0, 0, 0]] := by
  let entry : Fin 4 → Fin 4 → Value (Exact ℚ .lines) := fun i j => .int (cycleAndPoint i j)
  have isSquare : (Value.list (List.ofFn fun i => .tuple (List.ofFn (entry i)))).IsSquareOf entry :=
    ⟨fun i => .tuple (List.ofFn (entry i)), rfl, fun _ => rfl⟩
  have numeric (i j : Fin 4) : (entry i j).entryReal = .ok (.finite (cycleAndPoint i j)) :=
    Exact.entryReal_int (cycleAndPoint i j)
  obtain ⟨cost, marked, -, -⟩ := visibility_marks_reachable isSquare numeric
  rw [edges_square isSquare numeric] at marked
  simp only [Except.map, Except.ok.injEq, Prod.mk.injEq] at marked
  rw [← marked.1]
  simp only [Exact.isZero_finite]
  decide

end Graph

end SourceMetrics
