import SourceMetrics.Proofs.Exact
import SourceMetrics.Statistics

/-! # Whole numbers in order

A median is taken of whole numbers that have been brought into a model of the real numbers. A model
may round them, and it may round two of them to one, but it has to leave them in a linear order
(`Arithmetic.OrdersWholes`). Then they can be sorted in one way only, so their median does not
depend on the order in which they are given (`Statistics.median_of_perm`).
-/

namespace SourceMetrics

open Arithmetic (less ofInt)

/-- Whole numbers that are brought into a model stand in a linear order there. -/
class Arithmetic.OrdersWholes (R : Type) [Arithmetic R] : Prop where
  total : ∀ i j : Int, less (ofInt j : R) (ofInt i) = false ∨ less (ofInt i : R) (ofInt j) = false
  trans : ∀ i j k : Int, less (ofInt j : R) (ofInt i) = false →
    less (ofInt k : R) (ofInt j) = false → less (ofInt k : R) (ofInt i) = false
  antisymm : ∀ i j : Int, less (ofInt j : R) (ofInt i) = false →
    less (ofInt i : R) (ofInt j) = false → (ofInt i : R) = ofInt j

namespace Exact

variable {K : Type} [Field K] [LinearOrder K] [FloorRing K] {kit : FieldKit K}

/-- Whole numbers are compared as in the field. -/
theorem less_ofInt (i j : Int) :
    Arithmetic.less (ofInt i : Exact K kit) (ofInt j) = decide ((i : K) < j) := by
  rw [ofInt_eq, ofInt_eq]
  rfl

instance : Arithmetic.OrdersWholes (Exact K kit) where
  total i j := by
    simp only [less_ofInt, decide_eq_false_iff_not, not_lt]
    exact le_total _ _
  trans i j k := by
    simp only [less_ofInt, decide_eq_false_iff_not, not_lt]
    exact le_trans
  antisymm i j := by
    simp only [less_ofInt, decide_eq_false_iff_not, not_lt]
    intro first second
    rw [ofInt_eq, ofInt_eq, le_antisymm first second]

end Exact

namespace Statistics

variable {R : Type} [Arithmetic R]

/-- Sorting can be done before the numbers are brought into the model. -/
theorem ascending_map (numbers : List Int) :
    ascending (numbers.map (ofInt : Int → R)) =
      (numbers.mergeSort fun i j => inOrder (ofInt i : R) (ofInt j)).map ofInt := by
  symm
  apply List.map_mergeSort
  intro i _ j _
  rfl

private theorem pairwise_ascending [Arithmetic.OrdersWholes R] (numbers : List Int) :
    (ascending (numbers.map (ofInt : Int → R))).Pairwise fun x y => inOrder x y = true := by
  rw [ascending_map, List.pairwise_map]
  apply List.pairwise_mergeSort
  · intro i j k
    simp only [inOrder, Bool.not_eq_true']
    exact Arithmetic.OrdersWholes.trans i j k
  · intro i j
    simpa [inOrder] using Arithmetic.OrdersWholes.total (R := R) i j

private theorem ascending_of_perm [Arithmetic.OrdersWholes R] {numbers others : List Int}
    (perm : numbers.Perm others) :
    ascending (numbers.map (ofInt : Int → R)) = ascending (others.map ofInt) := by
  have sorted (given : List Int) :
      (ascending (given.map (ofInt : Int → R))).Perm (given.map ofInt) :=
    List.mergeSort_perm _ _
  apply List.Perm.eq_of_pairwise ?_ (pairwise_ascending numbers) (pairwise_ascending others)
  · exact (sorted numbers).trans ((perm.map ofInt).trans (sorted others).symm)
  · intro x y left right first second
    obtain ⟨i, -, rfl⟩ := List.mem_map.mp ((sorted numbers).mem_iff.mp left)
    obtain ⟨j, -, rfl⟩ := List.mem_map.mp ((sorted others).mem_iff.mp right)
    simp only [inOrder, Bool.not_eq_true'] at first second
    exact Arithmetic.OrdersWholes.antisymm i j first second

/-- The median of whole numbers does not depend on their order. -/
theorem median_of_perm [Arithmetic.OrdersWholes R] {numbers others : List Int}
    (perm : numbers.Perm others) :
    median (numbers.map (ofInt : Int → R)) = median (others.map ofInt) := by
  have empty : (numbers.map (ofInt : Int → R)).isEmpty = (others.map (ofInt : Int → R)).isEmpty :=
    (perm.map ofInt).isEmpty_eq
  rw [median, median, empty, (perm.map ofInt).any_eq, ascending_of_perm perm]

end Statistics

end SourceMetrics
