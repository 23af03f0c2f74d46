import Mathlib.Data.ENat.Lattice
import Mathlib.Logic.Relation
import Mathlib.Order.Bounds.Basic
import SourceMetrics.Proofs.SquareMatrix

/-! # Closing finds shortest walks

Exact distances are read as extended numbers (`Distance.toENat`), where a sum of distances is a sum
and the shorter one of two is the minimum. After the rounds for some nodes, a distance is no longer
than a single step, it is the length of an actual walk, and going by one of these nodes is no short
cut (`Graph.ClosedOver`). One more round keeps this for one more node. Once all nodes have been gone
through, every distance is the least length of a walk of one or more steps
(`Graph.isLeast_walk_close`), whatever cycles there are. It is infinite if every walk has an
infinite step (`Graph.least_eq_top_iff`).
-/

namespace SourceMetrics

namespace Distance

/-- A distance as an extended number. -/
def toENat : Distance → ℕ∞
  | .finite length => length
  | .unreachable => ⊤

@[simp] theorem toENat_join (a b : Distance) : (join a b).toENat = a.toENat + b.toENat := by
  cases a <;> cases b <;> simp [join, toENat]

@[simp] theorem toENat_shorter (a b : Distance) :
    (shorter a b).toENat = min a.toENat b.toENat := by
  cases a <;> cases b <;> simp [shorter, toENat, Nat.mono_cast.map_min]

/-- A distance is reachable exactly if it is not infinite. -/
theorem isReachable_iff (a : Distance) : a.isReachable = true ↔ a.toENat ≠ ⊤ := by
  cases a <;> simp [isReachable, toENat]

end Distance

namespace Graph

variable {n : Nat}

/-- `Walk weight i j total` says that one or more steps lead from `i` to `j` and that their weights
add up to `total`. -/
inductive Walk (weight : Fin n → Fin n → ℕ∞) : Fin n → Fin n → ℕ∞ → Prop
  | step (i j : Fin n) : Walk weight i j (weight i j)
  | cons (i : Fin n) {k j : Fin n} {total : ℕ∞} (rest : Walk weight k j total) :
      Walk weight i j (weight i k + total)

private theorem Walk.append {weight : Fin n → Fin n → ℕ∞} {i k j : Fin n} {first second : ℕ∞}
    (there : Walk weight i k first) (onward : Walk weight k j second) :
    Walk weight i j (first + second) := by
  induction there with
  | step i k => exact .cons i onward
  | cons i _ ih =>
    rw [add_assoc]
    exact .cons i (ih onward)

/-- The extended numbers that stand for distances. -/
def lengths (distance : Fin n → Fin n → Distance) : Fin n → Fin n → ℕ∞ := fun i j =>
  (distance i j).toENat

private theorem lengths_relaxAt (distance : Fin n → Fin n → Distance) (node i j : Fin n) :
    lengths (relaxAt distance node) i j =
      min (lengths distance i j) (lengths distance i node + lengths distance node j) := by
  change (Distance.shorter _ (Distance.join _ _)).toENat = _
  rw [Distance.toENat_shorter, Distance.toENat_join]
  rfl

/-- Lengths that count the ways by some nodes, over the weights of single steps. -/
structure ClosedOver (weight : Fin n → Fin n → ℕ∞) (nodes : List (Fin n))
    (length : Fin n → Fin n → ℕ∞) : Prop where
  le_step : ∀ i j, length i j ≤ weight i j
  walk : ∀ i j, Walk weight i j (length i j)
  no_shortcut : ∀ k ∈ nodes, ∀ i j, length i j ≤ length i k + length k j

/-- A round leaves the distances to its node and from its node as they are. -/
theorem lengths_relaxAt_pivot (distance : Fin n → Fin n → Distance) (node i : Fin n) :
    lengths (relaxAt distance node) i node = lengths distance i node ∧
      lengths (relaxAt distance node) node i = lengths distance node i := by
  rw [lengths_relaxAt, lengths_relaxAt]
  exact ⟨min_eq_left le_self_add, min_eq_left le_add_self⟩

/-- One more round: after it the ways by its node count too. -/
theorem ClosedOver.relaxAt {weight : Fin n → Fin n → ℕ∞} {nodes : List (Fin n)}
    {distance : Fin n → Fin n → Distance} (closed : ClosedOver weight nodes (lengths distance))
    (node : Fin n) :
    ClosedOver weight (nodes ++ [node]) (lengths (relaxAt distance node)) where
  le_step i j := by
    rw [lengths_relaxAt]
    exact (min_le_left _ _).trans (closed.le_step i j)
  walk i j := by
    rw [lengths_relaxAt]
    rcases min_choice (lengths distance i j)
      (lengths distance i node + lengths distance node j) with direct | detour
    · rw [direct]
      exact closed.walk i j
    · rw [detour]
      exact (closed.walk i node).append (closed.walk node j)
  no_shortcut k member i j := by
    rcases List.mem_append.mp member with earlier | last
    · -- Both halves of the way by `k` are old distances or go by the new node; in the latter case
      -- the way from `i` to the node and from there to `j` is no longer than the whole.
      have triangle := closed.no_shortcut k earlier
      simp only [lengths_relaxAt]
      rcases min_choice (lengths distance i k) (lengths distance i node + lengths distance node k)
        with there | there <;>
      rcases min_choice (lengths distance k j) (lengths distance k node + lengths distance node j)
        with onward | onward <;> rw [there, onward]
      · exact (min_le_left _ _).trans (triangle i j)
      · apply (min_le_right _ _).trans
        rw [← add_assoc]
        exact add_le_add_left (triangle i node) _
      · apply (min_le_right _ _).trans
        rw [add_assoc]
        exact add_le_add_right (triangle node j) _
      · apply (min_le_right _ _).trans
        exact add_le_add le_self_add le_add_self
    · obtain rfl := List.mem_singleton.mp last
      rw [(lengths_relaxAt_pivot distance k i).1, (lengths_relaxAt_pivot distance k j).2,
        lengths_relaxAt]
      exact min_le_right _ _

/-- After the rounds for some nodes the ways by these nodes count. -/
theorem closedOver_foldl (distance : Fin n → Fin n → Distance) (nodes : List (Fin n)) :
    ClosedOver (lengths distance) nodes (lengths (nodes.foldl relaxAt distance)) := by
  induction nodes using List.reverseRecOn with
  | nil => exact ⟨fun _ _ => le_rfl, .step, by simp⟩
  | append_singleton rest node ih =>
    rw [List.foldl_append]
    exact ih.relaxAt node

/-- Where the ways by all nodes count, no walk is shorter than the distance between its ends. -/
theorem ClosedOver.le_walk {weight length : Fin n → Fin n → ℕ∞} {nodes : List (Fin n)}
    (closed : ClosedOver weight nodes length) (all : ∀ k, k ∈ nodes) {i j : Fin n} {total : ℕ∞}
    (walk : Walk weight i j total) : length i j ≤ total := by
  induction walk with
  | step i j => exact closed.le_step i j
  | @cons i k j total _ ih =>
    exact (closed.no_shortcut k (all k) i j).trans (add_le_add (closed.le_step i k) ih)

/-- Closed distances are the least lengths of walks. -/
theorem isLeast_walk_close (distance : Fin n → Fin n → Distance) (i j : Fin n) :
    IsLeast {total | Walk (lengths distance) i j total}
      (lengths ((List.finRange n).foldl relaxAt distance) i j) := by
  have closed := closedOver_foldl distance (List.finRange n)
  exact ⟨closed.walk i j, fun _ walk => closed.le_walk List.mem_finRange walk⟩

/-- A walk without an infinite step connects its ends by finite steps. -/
theorem Walk.transGen {weight : Fin n → Fin n → ℕ∞} {i j : Fin n} {total : ℕ∞}
    (walk : Walk weight i j total) (finite : total ≠ ⊤) :
    Relation.TransGen (fun a b => weight a b ≠ ⊤) i j := by
  induction walk with
  | step i j => exact .single finite
  | cons i _ ih =>
    obtain ⟨first, rest⟩ := WithTop.add_ne_top.mp finite
    exact .head first (ih rest)

private theorem exists_walk_of_transGen {weight : Fin n → Fin n → ℕ∞} {i j : Fin n}
    (path : Relation.TransGen (fun a b => weight a b ≠ ⊤) i j) :
    ∃ total, Walk weight i j total ∧ total ≠ ⊤ := by
  induction path using Relation.TransGen.head_induction_on with
  | single finite => exact ⟨_, .step _ _, finite⟩
  | head finite _ ih =>
    obtain ⟨total, walk, rest⟩ := ih
    exact ⟨_, .cons _ walk, WithTop.add_ne_top.mpr ⟨finite, rest⟩⟩

/-- The least length is infinite exactly if every walk has an infinite step. -/
theorem least_eq_top_iff {weight : Fin n → Fin n → ℕ∞} {i j : Fin n} {length : ℕ∞}
    (least : IsLeast {total | Walk weight i j total} length) :
    length = ⊤ ↔ ¬ Relation.TransGen (fun a b => weight a b ≠ ⊤) i j := by
  rw [iff_not_comm]
  constructor
  · intro path
    obtain ⟨total, walk, finite⟩ := exists_walk_of_transGen path
    exact ne_top_of_le_ne_top finite (least.2 walk)
  · exact least.1.transGen

end Graph

end SourceMetrics
