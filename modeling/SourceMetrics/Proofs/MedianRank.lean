import Mathlib.Data.List.GetD
import SourceMetrics.Proofs.WholeMeans

/-! # The rank of a median

In exact arithmetic the median of whole numbers is the one in the middle of their ascending row, or
the mean of the two in the middle (`Statistics.median_wholes`). From the middle on, every number of
the row reaches it, so half of the numbers do, rounded up (`Statistics.half_le_countP`), and up to
the middle no number exceeds it, so half of the numbers do not (`Statistics.half_le_countP_le`).
-/

namespace SourceMetrics

open Arithmetic (ofInt)

variable {K : Type} [Field K] [LinearOrder K] [FloorRing K] {kit : FieldKit K}

private theorem Exact.mean_two (i j : Int) :
    (Statistics.mean [ofInt i, ofInt j] : Exact K kit) = .finite (((i : K) + j) / 2) := by
  rw [Statistics.mean, Arithmetic.zero, ofInt_eq, ofInt_eq, ofInt_eq, ofInt_eq]
  change div (.finite (((0 : Int) : K) + i + j)) (.finite ((2 : Int) : K)) = _
  simp [div]

namespace Statistics

/-- Whole numbers in ascending order. -/
def ascendingWholes (numbers : List Int) : List Int :=
  numbers.mergeSort fun i j => decide (i ≤ j)

theorem ascendingWholes_perm (numbers : List Int) : (ascendingWholes numbers).Perm numbers :=
  List.mergeSort_perm _ _

/-- Whole numbers are sorted in ascending order. -/
theorem pairwise_ascendingWholes (numbers : List Int) :
    (ascendingWholes numbers).Pairwise (· ≤ ·) := by
  refine (List.pairwise_mergeSort ?_ ?_ numbers).imp of_decide_eq_true
  · intro i j k first second
    simp only [decide_eq_true_eq] at first second ⊢
    omega
  · intro i j
    simp only [Bool.or_eq_true, decide_eq_true_eq]
    omega

private theorem getD_le_getD {sorted : List Int} (ascends : sorted.Pairwise (· ≤ ·)) {i j : Nat}
    (before : i ≤ j) (inside : j < sorted.length) : sorted.getD i 0 ≤ sorted.getD j 0 := by
  rw [List.getD_eq_getElem _ _ (before.trans_lt inside), List.getD_eq_getElem _ _ inside]
  obtain rfl | earlier := before.eq_or_lt
  · exact le_rfl
  · exact List.pairwise_iff_getElem.mp ascends i j _ inside earlier

variable (K) in
/-- The middle of whole numbers in ascending order, in a field. -/
def middleWhole (sorted : List Int) : K :=
  let half := sorted.length / 2
  if sorted.length % 2 = 1 then (sorted.getD half 0 : K)
  else ((sorted.getD (half - 1) 0 : K) + sorted.getD half 0) / (2 : Nat)

variable [IsStrictOrderedRing K]

/-- Whole numbers are in ascending order before and after they are brought into a field. -/
theorem ascending_wholes (numbers : List Int) :
    ascending (numbers.map (ofInt : Int → Exact K kit)) =
      (ascendingWholes numbers).map ofInt := by
  have order : (fun i j : Int => inOrder (ofInt i : Exact K kit) (ofInt j)) =
      fun i j => decide (i ≤ j) := by
    funext i j
    rw [inOrder, Exact.less_ofInt, ← decide_not]
    simp only [not_lt, Int.cast_le]
  rw [ascending_map, order]
  rfl

/-- The median of whole numbers is in the middle of them in ascending order. -/
theorem median_wholes {numbers : List Int} (occupied : numbers ≠ []) :
    median (numbers.map (ofInt : Int → Exact K kit)) =
      .finite (middleWhole K (ascendingWholes numbers)) := by
  have filled : (numbers.map (ofInt : Int → Exact K kit)).isEmpty = false := by
    simpa using occupied
  have areNumbers : (numbers.map (ofInt : Int → Exact K kit)).any Arithmetic.isNaN = false := by
    simp [Arithmetic.AveragesWholes.isNaN_ofInt]
  have item (position : Nat) :
      ((ascendingWholes numbers).map (ofInt : Int → Exact K kit)).getD position Arithmetic.zero =
        ofInt ((ascendingWholes numbers).getD position 0) :=
    List.getD_map _ _ _
  simp only [median, filled, areNumbers, Bool.false_eq_true, ↓reduceIte, ascending_wholes, middle,
    List.length_map, item, middleWhole]
  split
  · exact Exact.mean_single _
  · exact Exact.mean_two _ _

/-- The middle is not above the first number of the upper half. -/
theorem middleWhole_le {sorted : List Int} (ascends : sorted.Pairwise (· ≤ ·))
    (occupied : sorted ≠ []) : middleWhole K sorted ≤ (sorted.getD (sorted.length / 2) 0 : Int) := by
  have filled := List.length_pos_iff.mpr occupied
  unfold middleWhole
  split
  · exact le_rfl
  · have below : ((sorted.getD (sorted.length / 2 - 1) 0 : Int) : K) ≤
        (sorted.getD (sorted.length / 2) 0 : Int) :=
      Int.cast_le.mpr (getD_le_getD ascends (by omega) (by omega))
    rw [div_le_iff₀ two_pos]
    linarith

/-- The upper half of an ascending row reaches its middle. -/
theorem middleWhole_le_of_mem_drop {sorted : List Int} (ascends : sorted.Pairwise (· ≤ ·))
    (filled : sorted ≠ []) {i : Int} (upper : i ∈ sorted.drop (sorted.length / 2)) :
    middleWhole K sorted ≤ i := by
  obtain ⟨position, inside, rfl⟩ := List.mem_iff_getElem.mp upper
  rw [List.length_drop] at inside
  have above := getD_le_getD ascends (Nat.le_add_right (sorted.length / 2) position) (by omega)
  rw [List.getElem_drop, ← List.getD_eq_getElem _ 0]
  exact (middleWhole_le ascends filled).trans (Int.cast_le.mpr above)

/-- The middle is not below the last number of the lower half. -/
theorem le_middleWhole {sorted : List Int} (ascends : sorted.Pairwise (· ≤ ·))
    (occupied : sorted ≠ []) :
    (sorted.getD ((sorted.length - 1) / 2) 0 : Int) ≤ middleWhole K sorted := by
  have filled := List.length_pos_iff.mpr occupied
  unfold middleWhole
  split
  · next odd =>
    have central : (sorted.length - 1) / 2 = sorted.length / 2 := by omega
    rw [central]
  · next even =>
    have lower : (sorted.length - 1) / 2 = sorted.length / 2 - 1 := by omega
    have above : ((sorted.getD (sorted.length / 2 - 1) 0 : Int) : K) ≤
        (sorted.getD (sorted.length / 2) 0 : Int) :=
      Int.cast_le.mpr (getD_le_getD ascends (by omega) (by omega))
    rw [lower, le_div_iff₀ two_pos]
    linarith

/-- The lower half of an ascending row does not exceed its middle. -/
theorem le_middleWhole_of_mem_take {sorted : List Int} (ascends : sorted.Pairwise (· ≤ ·))
    (filled : sorted ≠ []) {i : Int} (lower : i ∈ sorted.take ((sorted.length + 1) / 2)) :
    i ≤ middleWhole K sorted := by
  obtain ⟨position, inside, rfl⟩ := List.mem_iff_getElem.mp lower
  rw [List.length_take] at inside
  have below : sorted.getD position 0 ≤ sorted.getD ((sorted.length - 1) / 2) 0 :=
    getD_le_getD ascends (by omega) (by omega)
  rw [List.getElem_take, ← List.getD_eq_getElem _ 0]
  exact (Int.cast_le.mpr below).trans (le_middleWhole ascends filled)

/-- Sorting does not lose all numbers. -/
theorem ascendingWholes_ne_nil {numbers : List Int} (filled : numbers ≠ []) :
    ascendingWholes numbers ≠ [] := fun empty =>
  filled (List.nil_perm.mp (empty ▸ ascendingWholes_perm numbers))

/-- If a part of the ascending row passes a test, at least as many of the numbers do. -/
theorem length_le_countP {part numbers : List Int} {test : Int → Bool}
    (within : part.Sublist (ascendingWholes numbers)) (passes : ∀ i ∈ part, test i = true) :
    part.length ≤ numbers.countP test := by
  calc part.length
      = part.countP test := (List.countP_eq_length.mpr passes).symm
    _ ≤ (ascendingWholes numbers).countP test := within.countP_le
    _ = numbers.countP test := (ascendingWholes_perm numbers).countP_eq test

/-- Half of the numbers, rounded up, reach the median. -/
theorem half_le_countP {numbers : List Int} (filled : numbers ≠ []) :
    (numbers.length + 1) / 2 ≤ numbers.countP fun i : Int =>
      decide (middleWhole K (ascendingWholes numbers) ≤ (i : K)) := by
  have reach := length_le_countP (List.drop_sublist _ (ascendingWholes numbers)) fun i upper =>
    decide_eq_true (middleWhole_le_of_mem_drop (K := K) (pairwise_ascendingWholes numbers)
      (ascendingWholes_ne_nil filled) upper)
  rw [List.length_drop, (ascendingWholes_perm numbers).length_eq] at reach
  omega

/-- Half of the numbers, rounded up, do not exceed the median. -/
theorem half_le_countP_le {numbers : List Int} (filled : numbers ≠ []) :
    (numbers.length + 1) / 2 ≤ numbers.countP fun i : Int =>
      decide ((i : K) ≤ middleWhole K (ascendingWholes numbers)) := by
  have stay := length_le_countP (List.take_sublist _ (ascendingWholes numbers)) fun i lower =>
    decide_eq_true (le_middleWhole_of_mem_take (K := K) (pairwise_ascendingWholes numbers)
      (ascendingWholes_ne_nil filled) lower)
  rw [List.length_take, (ascendingWholes_perm numbers).length_eq] at stay
  omega

end Statistics

end SourceMetrics
