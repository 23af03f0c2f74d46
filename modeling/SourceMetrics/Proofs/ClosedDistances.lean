import Mathlib.Data.Nat.Cast.Order.Ring
import SourceMetrics.Proofs.Outcome
import SourceMetrics.Proofs.Visibility

/-! # What closing a matrix of distances computes

A matrix of numbers is closed by the rounds of `Graph.close`, with the numbers as single items of a
grid. Where the numbers are exact and stand for distances, the rounds are those on the distances
themselves (`PathWeight.IsMap`, `Graph.closeMatrix_square`), and these find least walks. Closing the
distances along single edges counts the steps of shortest routes, apart from the diagonal, where one
step stays where it is (`Graph.closed_distances_are_least_walks`).
-/

namespace SourceMetrics

/-- A translation of distances that keeps sums and what is shorter. -/
structure PathWeight.IsMap {V W : Type} [PathWeight V] [PathWeight W] (translate : V → W) :
    Prop where
  join : ∀ a b, translate (join a b) = PathWeight.join (translate a) (translate b)
  shorter : ∀ a b, translate (shorter a b) = PathWeight.shorter (translate a) (translate b)

namespace Grid

private theorem isMap_item {W : Type} [PathWeight W] :
    PathWeight.IsMap (Grid.item : W → Grid W) where
  join _ _ := by simp only [PathWeight.join, combine]
  shorter _ _ := by simp only [PathWeight.shorter, combine]

private theorem map_rows_rows_square {α : Type} {n : Nat} (entry : Fin n → Fin n → α) :
    (square entry).rows.map rows = Matrix.tabulate fun i j => .item (entry i j) := by
  rw [square, rows, List.map_ofFn]
  rfl

end Grid

namespace Distance

private theorem toENat_eq_top_iff (a : Distance) : a.toENat = ⊤ ↔ a = .unreachable := by
  cases a <;> simp [toENat]

private theorem toENat_eq_natCast_iff (a : Distance) (length : ℕ) :
    a.toENat = length ↔ a = .finite length := by
  cases a <;> simp [toENat]

variable {K : Type} [Field K] {kit : FieldKit K}

/-- A distance as an exact number. -/
def toExact : Distance → Exact K kit
  | .finite length => .finite length
  | .unreachable => .infinite

variable [LinearOrder K] [IsStrictOrderedRing K] [FloorRing K]

/-- Distances are added and compared as exact numbers are. -/
theorem isMap_toExact : PathWeight.IsMap (toExact : Distance → Exact K kit) where
  join a b := by
    cases a with
    | unreachable => cases b <;> rfl
    | finite first =>
      cases b with
      | unreachable => rfl
      | finite second => exact congrArg Exact.finite (Nat.cast_add first second)
  shorter a b := by
    cases a with
    | unreachable => cases b <;> rfl
    | finite first =>
      cases b with
      | unreachable => rfl
      | finite second =>
        change Exact.finite ((min first second : ℕ) : K) =
          if (decide ((first : K) < second) || false) = true then .finite (first : K)
            else .finite (second : K)
        rcases lt_or_ge first second with less | notLess
        · simp [less, min_eq_left less.le]
        · simp [notLess.not_gt, min_eq_right notLess]

end Distance

namespace Graph

open SourceMetrics.Matrix

variable {n : Nat}

/-- Translated distances are closed as the distances are. -/
theorem foldl_relaxAt_map {V W : Type} [PathWeight V] [PathWeight W] {translate : V → W}
    (isMap : PathWeight.IsMap translate) (nodes : List (Fin n)) (distance : Fin n → Fin n → V) :
    (nodes.foldl relaxAt fun i j => translate (distance i j)) =
      fun i j => translate (nodes.foldl relaxAt distance i j) := by
  induction nodes generalizing distance with
  | nil => rfl
  | cons node rest ih =>
    rw [List.foldl_cons, List.foldl_cons, ← ih]
    congr 1
    funext i j
    rw [relaxAt, relaxAt, isMap.shorter, isMap.join]

/-- Closing a square matrix of numbers. -/
theorem closeMatrix_square {R : Type} [Arithmetic R] {matrix : Value R}
    {entry : Fin n → Fin n → Value R} (isSquare : matrix.IsSquareOf entry)
    {number : Fin n → Fin n → R} (numeric : ∀ i j, (entry i j).entryReal = .ok (number i j)) :
    closeMatrix matrix = .ok (Grid.square ((List.finRange n).foldl relaxAt number)) := by
  have single (i j : Fin n) := Value.items?_of_entryReal (numeric i j)
  cases n with
  | zero =>
    rw [closeMatrix, Grid.reals, Grid.ofEntries, Grid.ofValue_square isSquare single]
    rfl
  | succ n =>
    rw [closeMatrix, Grid.reals, Grid.ofEntries_square isSquare single numeric, ok_bind]
    refine (if_neg (lt_irrefl (n + 1))).trans ?_
    rw [Grid.map_rows_rows_square, close_tabulate, foldl_relaxAt_map Grid.isMap_item, tabulate,
      List.map_ofFn]
    rfl

/-- `Route edge i j steps` says that so many edges, one after another, lead from `i` to `j`. -/
inductive Route (edge : Fin n → Fin n → Prop) : Fin n → Fin n → ℕ → Prop
  | here (i : Fin n) : Route edge i i 0
  | cons {i k j : Fin n} {steps : ℕ} (first : edge i k) (rest : Route edge k j steps) :
      Route edge i j (steps + 1)

section

variable {edge : Fin n → Fin n → Bool} {i j : Fin n}

/-- Leaving out the steps that stay where they are, a finite walk is a route. -/
theorem Walk.exists_route {total : ℕ∞} (walk : Walk (lengths (seedAt edge)) i j total)
    (finite : total ≠ ⊤) :
    ∃ steps : ℕ, Route (fun a b => edge a b = true) i j steps ∧ (steps : ℕ∞) ≤ total := by
  induction walk with
  | step i j =>
    rw [lengths_seedAt] at finite ⊢
    by_cases connected : edge i j = true ∨ i = j
    · rw [if_pos connected]
      rcases connected with follows | rfl
      · exact ⟨1, .cons follows (.here j), le_rfl⟩
      · exact ⟨0, .here i, zero_le⟩
    · exact absurd (if_neg connected) finite
  | @cons i k j total _ ih =>
    obtain ⟨first, rest⟩ := WithTop.add_ne_top.mp finite
    obtain ⟨steps, route, short⟩ := ih rest
    rw [lengths_seedAt] at first ⊢
    by_cases connected : edge i k = true ∨ i = k
    · rw [if_pos connected]
      rcases connected with follows | rfl
      · refine ⟨steps + 1, .cons follows route, ?_⟩
        rw [Nat.cast_add, Nat.cast_one, add_comm]
        exact add_le_add_right short 1
      · exact ⟨steps, route, short.trans le_add_self⟩
    · exact absurd (if_neg connected) first

/-- A route with a step is a walk of its length. -/
theorem Route.stays_or_walk {steps : ℕ} (route : Route (fun a b => edge a b = true) i j steps) :
    (i = j ∧ steps = 0) ∨ Walk (lengths (seedAt edge)) i j steps := by
  induction route with
  | here i => exact .inl ⟨rfl, rfl⟩
  | @cons i k j steps first _ ih =>
    right
    have one : lengths (seedAt edge) i k = 1 := by rw [lengths_seedAt, if_pos (.inl first)]
    rw [Nat.cast_add, Nat.cast_one, add_comm, ← one]
    rcases ih with ⟨rfl, rfl⟩ | walk
    · simpa using Walk.step i k
    · exact .cons i walk

/-- Each step of a walk counts at least one. -/
theorem Walk.one_le {total : ℕ∞} (walk : Walk (lengths (seedAt edge)) i j total) : 1 ≤ total := by
  have single (a b : Fin n) : 1 ≤ lengths (seedAt edge) a b := by
    rw [lengths_seedAt]
    split
    · exact le_rfl
    · exact le_top
  cases walk with
  | step => exact single i j
  | cons _ _ => exact (single i _).trans le_self_add

/-- Between different nodes, the least walk is as long as the shortest route. -/
theorem least_walk_iff_least_route {closed : Distance} (different : i ≠ j)
    (least : IsLeast {total | Walk (lengths (seedAt edge)) i j total} closed.toENat) (steps : ℕ) :
    closed = .finite steps ↔
      IsLeast {count | Route (fun a b => edge a b = true) i j count} steps := by
  have bound {count : ℕ} (route : Route (fun a b => edge a b = true) i j count) :
      closed.toENat ≤ count := by
    rcases route.stays_or_walk with ⟨same, -⟩ | walk
    · exact absurd same different
    · exact least.2 walk
  have shortest {length : ℕ} (finite : closed = .finite length) :
      IsLeast {count | Route (fun a b => edge a b = true) i j count} length := by
    subst finite
    have lower : ∀ count, Route (fun a b => edge a b = true) i j count → length ≤ count :=
      fun count route => Nat.cast_le.mp (bound route)
    obtain ⟨count, route, short⟩ := least.1.exists_route (ENat.natCast_ne_top length)
    have same : count = length := le_antisymm (Nat.cast_le.mp short) (lower count route)
    exact ⟨same ▸ route, lower⟩
  constructor
  · exact shortest
  · intro leastRoute
    cases closed with
    | unreachable => exact absurd (bound leastRoute.1) (by simp [Distance.toENat])
    | finite length => rw [(shortest rfl).unique leastRoute]

/-- From a node to itself, one step stays there. -/
theorem least_walk_diagonal {closed : Distance}
    (least : IsLeast {total | Walk (lengths (seedAt edge)) i i total} closed.toENat) :
    closed = .finite 1 := by
  have stay : lengths (seedAt edge) i i = 1 := by rw [lengths_seedAt, if_pos (.inr rfl)]
  rw [← Distance.toENat_eq_natCast_iff, Nat.cast_one]
  exact le_antisymm (stay ▸ least.2 (Walk.step i i)) least.1.one_le

end

section

variable {K : Type} [Field K] [LinearOrder K] [FloorRing K] {kit : FieldKit K}

/-- The distances along single edges as a matrix among the values. -/
def seedMatrix (edges : List (List Bool)) : Value (Exact K kit) :=
  .list ((seed edges).map fun row => .list (row.map Value.real))

private theorem toExact_seedAt (edge : Fin n → Fin n → Bool) (i j : Fin n) :
    ((seedAt edge i j).toExact : Exact K kit) =
      if edge i j || i = j then PathWeight.step else PathWeight.unreachable := by
  have one : (PathWeight.step : Exact K kit) = .finite ((1 : ℕ) : K) := by
    change Arithmetic.ofInt 1 = _
    rw [Exact.ofInt_eq, Int.cast_one, Nat.cast_one]
  rw [seedAt, apply_ite Distance.toExact, one]
  rfl

private theorem isSquareOf_seedMatrix (edge : Fin n → Fin n → Bool) :
    (seedMatrix (tabulate edge) : Value (Exact K kit)).IsSquareOf
      fun i j => .real (seedAt edge i j).toExact := by
  refine ⟨fun i => .list (List.ofFn fun j => .real (seedAt edge i j).toExact), ?_, fun _ => rfl⟩
  simp only [toExact_seedAt]
  rw [seedMatrix, seed_tabulate, tabulate, List.map_ofFn]
  refine congrArg some (congrArg List.ofFn ?_)
  funext i
  rw [Function.comp_apply, List.map_ofFn]
  rfl

variable [IsStrictOrderedRing K]

/-- A matrix of distances is closed as the distances are. -/
theorem closeMatrix_distances {matrix : Value (Exact K kit)}
    {entry : Fin n → Fin n → Value (Exact K kit)} {distance : Fin n → Fin n → Distance}
    (isSquare : matrix.IsSquareOf entry)
    (numeric : ∀ i j, (entry i j).entryReal = .ok (distance i j).toExact) :
    closeMatrix matrix = .ok (Grid.square fun i j =>
      ((List.finRange n).foldl relaxAt distance i j).toExact) := by
  rw [closeMatrix_square isSquare numeric, foldl_relaxAt_map Distance.isMap_toExact]

/-- **Closing finds least walks.** Let a square matrix of exact numbers hold distances, which are
natural numbers or infinite. The closed matrix has, for each two nodes, the least sum of entries
along a walk of one or more steps from the first to the second, and an infinite value exactly if
every such walk has an infinite entry. For the distances along the edges that a matrix of numbers
marks, the diagonal of the closed matrix has ones, and a number stands for two different nodes
exactly if it is the number of steps of a shortest route from the first to the second. -/
theorem closed_distances_are_least_walks :
    (∀ (matrix : Value (Exact K kit)) (entry : Fin n → Fin n → Value (Exact K kit))
      (distance : Fin n → Fin n → Distance), matrix.IsSquareOf entry →
      (∀ i j, (entry i j).entryReal = .ok (distance i j).toExact) →
      ∃ closed : Fin n → Fin n → Distance,
        closeMatrix matrix = .ok (Grid.square fun i j => (closed i j).toExact) ∧
        (∀ i j, IsLeast {total | Walk (lengths distance) i j total} (closed i j).toENat) ∧
        ∀ i j, closed i j = .unreachable ↔
          ¬ Relation.TransGen (fun a b => distance a b ≠ .unreachable) i j) ∧
    (∀ (adjacency : Value (Exact K kit)) (entry : Fin n → Fin n → Value (Exact K kit))
      (number : Fin n → Fin n → Exact K kit), adjacency.IsSquareOf entry →
      (∀ i j, (entry i j).entryReal = .ok (number i j)) →
      ∃ (edges : List (List Bool)) (closed : Fin n → Fin n → Distance),
        Matrix.edges adjacency = .ok edges ∧
        closeMatrix (seedMatrix edges : Value (Exact K kit)) =
          .ok (Grid.square fun i j => (closed i j).toExact) ∧
        distances edges = tabulate closed ∧
        (∀ i, closed i i = .finite 1) ∧
        ∀ i j, i ≠ j → ∀ steps, closed i j = .finite steps ↔
          IsLeast {count | Route (fun a b => Arithmetic.isZero (number a b) = false) i j count}
            steps) := by
  constructor
  · intro matrix entry distance isSquare numeric
    have least := isLeast_walk_close distance
    refine ⟨_, closeMatrix_distances isSquare numeric, least, ?_⟩
    intro i j
    rw [← Distance.toENat_eq_top_iff]
    refine (least_eq_top_iff (least i j)).trans ?_
    simp only [lengths, ne_eq, Distance.toENat_eq_top_iff]
  · intro adjacency entry number isSquare numeric
    let edge : Fin n → Fin n → Bool := fun i j => !Arithmetic.isZero (number i j)
    have least := isLeast_walk_close (seedAt edge)
    refine ⟨_, _, edges_square isSquare numeric,
      closeMatrix_distances (isSquareOf_seedMatrix edge) fun _ _ => rfl, ?_, ?_, ?_⟩
    · rw [distances, seed_tabulate, close_tabulate]
      rfl
    · intro i
      exact least_walk_diagonal (least i i)
    · intro i j different steps
      refine (least_walk_iff_least_route different (least i j) steps).trans ?_
      simp only [edge, Bool.not_eq_true']

end

/-- Three nodes on a cycle, with distances to themselves, and a node apart. -/
def cycleWays : Fin 4 → Fin 4 → Distance :=
  ![![.finite 5, .finite 2, .unreachable, .unreachable],
    ![.unreachable, .finite 0, .finite 3, .unreachable],
    ![.finite 1, .unreachable, .finite 7, .unreachable],
    ![.unreachable, .unreachable, .unreachable, .unreachable]]

/-- A distance as an entry of a matrix. -/
def wayEntry : Distance → Value (Exact ℚ .lines)
  | .finite length => .int length
  | .unreachable => .real .infinite

/-- The way around the cycle is shorter than the way from the last node to itself, and there is none
to the node apart. From the first node to the third, a shortest route has two steps. -/
theorem closed_distances_are_least_walks_cycle :
    (∃ closed : Fin 4 → Fin 4 → Distance,
      closeMatrix (.list (List.ofFn fun i => .tuple (List.ofFn fun j => wayEntry (cycleWays i j)))) =
        .ok (Grid.square fun i j => (closed i j).toExact) ∧
      closed 2 2 = .finite 6 ∧ IsLeast {total | Walk (lengths cycleWays) 2 2 total} 6 ∧
      closed 0 3 = .unreachable) ∧
    IsLeast {count | Route (fun a b => Arithmetic.isZero
      (.finite (cycleAndPoint a b) : Exact ℚ .lines) = false) 0 2 count} 2 := by
  have isSquare (entry : Fin 4 → Fin 4 → Value (Exact ℚ .lines)) :
      (Value.list (List.ofFn fun i => .tuple (List.ofFn (entry i)))).IsSquareOf entry :=
    ⟨fun i => .tuple (List.ofFn (entry i)), rfl, fun _ => rfl⟩
  obtain ⟨walks, routes⟩ := closed_distances_are_least_walks (K := ℚ) (n := 4)
  constructor
  · have numeric (i j : Fin 4) :
        (wayEntry (cycleWays i j)).entryReal = .ok (cycleWays i j).toExact := by
      cases cycleWays i j with
      | unreachable => rfl
      | finite length =>
        rw [wayEntry, Exact.entryReal_int, Int.cast_natCast]
        rfl
    obtain ⟨closed, done, least, -⟩ := walks _ _ cycleWays (isSquare _) numeric
    have value (i j : Fin 4) :
        (closed i j).toENat = lengths ((List.finRange 4).foldl relaxAt cycleWays) i j :=
      (least i j).unique (isLeast_walk_close cycleWays i j)
    have around : closed 2 2 = .finite 6 := (Distance.toENat_eq_natCast_iff _ 6).mp (value 2 2)
    refine ⟨closed, done, around, ?_, (Distance.toENat_eq_top_iff _).mp (value 0 3)⟩
    simpa [around, Distance.toENat] using least 2 2
  · have numeric (i j : Fin 4) : (Value.int (cycleAndPoint i j) : Value (Exact ℚ .lines)).entryReal =
        .ok (.finite (cycleAndPoint i j)) :=
      Exact.entryReal_int (cycleAndPoint i j)
    obtain ⟨edges, closed, marked, -, same, -, shortest⟩ := routes _ _ _ (isSquare _) numeric
    apply (shortest 0 2 (by decide) 2).mp
    obtain rfl := Except.ok.inj (marked.symm.trans (edges_square (isSquare _) numeric))
    rw [distances, seed_tabulate, close_tabulate] at same
    rw [← tabulate_injective same]
    simp only [Exact.isZero_finite]
    decide

end Graph

end SourceMetrics
