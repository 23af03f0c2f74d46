import Mathlib.Algebra.Ring.CharZero
import SourceMetrics.Proofs.Visibility
import SourceMetrics.Proofs.WholeOrder

/-! # Means and shares of whole numbers

A model of the real numbers may round a sum and a quotient, but not arbitrarily. The mean of a
whole number with itself must not come out above it (`Arithmetic.AveragesWholes`), or else numbers
that are all the same would not reach their own median (`Statistics.less_median_replicate`). And a
count that does not exceed its limit must be a share of it within the range of the model
(`Arithmetic.HoldsShares`), so that it has a percentage (`Statistics.percentify_share`).
-/

namespace SourceMetrics

open Arithmetic (less ofInt)

/-- Whole numbers that fit into a word are not below their mean with themselves. -/
class Arithmetic.AveragesWholes (R : Type) [Arithmetic R] : Prop where
  isNaN_ofInt : ∀ i : Int, isNaN (ofInt i : R) = false
  single : ∀ i : Int, i.natAbs ≤ 2 ^ 63 → less (ofInt i : R) (Statistics.mean [ofInt i]) = false
  pair : ∀ i : Int, i.natAbs ≤ 2 ^ 63 →
    less (ofInt i : R) (Statistics.mean [ofInt i, ofInt i]) = false

/-- A count has a share in a limit that it does not exceed. -/
class Arithmetic.HoldsShares (R : Type) [Arithmetic R] : Prop where
  inRange : ∀ {count limit : Nat}, count ≤ limit →
    isInfinite (quotient count limit : R) = false

namespace Exact

variable {K : Type} [Field K] [LinearOrder K] [FloorRing K] {kit : FieldKit K}

/-- The mean of one whole number is this number. -/
theorem mean_single (i : Int) : (Statistics.mean [ofInt i] : Exact K kit) = .finite i := by
  rw [Statistics.mean, Arithmetic.zero, ofInt_eq, ofInt_eq, ofInt_eq]
  change div (.finite (((0 : Int) : K) + i)) (.finite ((1 : Int) : K)) = _
  simp [div]

private theorem mean_pair (i : Int) :
    (Statistics.mean [ofInt i, ofInt i] : Exact K kit) = .finite i := by
  rw [Statistics.mean, Arithmetic.zero, ofInt_eq, ofInt_eq, ofInt_eq]
  change div (.finite (((0 : Int) : K) + i + i)) (.finite ((2 : Int) : K)) = _
  simp [div]

/-- A percentage is exact. -/
theorem percentage_eq (count limit : Nat) :
    (Statistics.percentage count limit : Exact K kit) = .finite (count / limit * 100) := by
  by_cases zero : limit = 0
  · rw [Statistics.percentage, if_pos zero, Arithmetic.zero, ofInt_eq, zero]
    simp
  · rw [Statistics.percentage, if_neg zero, Statistics.hundredfold, ofInt_eq]
    change mul (div (.finite ((count : Int) : K)) (.finite ((limit : Int) : K))) _ = _
    simp [div, mul, zero]

variable [IsStrictOrderedRing K]

/-- A percentage is zero exactly if nothing is counted. -/
theorem percentage_eq_zero_iff {count limit : Nat} (fits : count ≤ limit) :
    (Statistics.percentage count limit : Exact K kit) = .finite 0 ↔ count = 0 := by
  rw [percentage_eq, Exact.finite.injEq]
  constructor
  · intro zero
    by_contra some
    have limited : limit ≠ 0 := by omega
    simp [some, limited] at zero
  · rintro rfl
    simp

instance : Arithmetic.AveragesWholes (Exact K kit) where
  isNaN_ofInt i := by
    rw [ofInt_eq]
    rfl
  single i _ := by
    rw [mean_single, ← ofInt_eq, less_ofInt]
    simp
  pair i _ := by
    rw [mean_pair, ← ofInt_eq, less_ofInt]
    simp

instance : Arithmetic.HoldsShares (Exact K kit) where
  inRange := by
    intro count limit fits
    change Arithmetic.isInfinite
      (div (.finite ((count : Int) : K)) (.finite ((limit : Int) : K))) = _
    by_cases zero : limit = 0
    · have empty : count = 0 := Nat.le_zero.mp (zero ▸ fits)
      simp [zero, empty, div, signed]
      rfl
    · simp [zero, div]
      rfl

end Exact

namespace Statistics

variable {R : Type} [Arithmetic R]

private theorem ascending_replicate (count : Nat) (x : R) :
    ascending (List.replicate count x) = List.replicate count x :=
  List.perm_replicate.mp (List.mergeSort_perm _ _)

/-- Numbers that are all the same reach their median. -/
theorem less_median_replicate [Arithmetic.AveragesWholes R] {count : Nat} (nonzero : count ≠ 0)
    {i : Int} (isWord : i.natAbs ≤ 2 ^ 63) :
    less (ofInt i : R) (median (List.replicate count (ofInt i))) = false := by
  have filled : (List.replicate count (ofInt i : R)).isEmpty = false := by
    simp [nonzero]
  have numbers : (List.replicate count (ofInt i : R)).any Arithmetic.isNaN = false := by
    simp [Arithmetic.AveragesWholes.isNaN_ofInt]
  have item {position : Nat} (inside : position < count) :
      (List.replicate count (ofInt i : R)).getD position Arithmetic.zero = ofInt i := by
    simp [List.getD_eq_getElem?_getD, inside]
  simp only [median, filled, numbers, Bool.false_eq_true, ↓reduceIte, ascending_replicate, middle,
    List.length_replicate]
  rw [item (by omega)]
  split
  · exact Arithmetic.AveragesWholes.single i isWord
  · rw [item (by omega)]
    exact Arithmetic.AveragesWholes.pair i isWord

/-- A count has a percentage of a limit that it does not exceed. -/
theorem percentify_share [Arithmetic.HoldsShares R] {count limit : Nat} (fits : count ≤ limit) :
    percentify (.int count) (.int limit) = .ok (percentage count limit : R) :=
  percentify_count count limit (Arithmetic.HoldsShares.inRange fits)

end Statistics

end SourceMetrics
