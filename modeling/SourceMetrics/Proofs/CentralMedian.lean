import SourceMetrics.Proofs.MatrixReading
import SourceMetrics.Proofs.MedianRank
import SourceMetrics.Proofs.Outcome

/-! # The median of whole numbers

A row of numbers among the values has the median of these numbers (`Statistics.medianOf_row`). For
whole numbers in exact arithmetic it is read off any ascending row of them, since there is only one
(`Statistics.eq_ascendingWholes`): it is the number in the middle of that row, or half the sum of
the two numbers there. So it is among the numbers (`Statistics.exists_around_middleWhole`), and each
half of the row is on its own side of it (`Statistics.median_is_central`).
-/

namespace SourceMetrics

namespace Statistics

open Arithmetic (ofInt)

/-- The median of a row of numbers among the values. -/
theorem medianOf_row {R : Type} [Arithmetic R] {n : Nat} {values : Value R}
    {entry : Fin (n + 1) → Value R} (listed : values.items? = some (List.ofFn entry))
    {number : Fin (n + 1) → R} (numeric : ∀ i, (entry i).entryReal = .ok (number i)) :
    medianOf values = .ok (median (List.ofFn number)) := by
  have grid : Grid.ofValue values = .row (List.ofFn fun i => .item (entry i)) := by
    rw [Grid.ofValue_of_items listed, List.map_ofFn]
    exact congrArg (fun item => Grid.row (List.ofFn item))
      (funext fun i => Grid.ofValue_of_single (Value.items?_of_entryReal (numeric i)))
  have shape := Grid.shape?_row_ofFn (fun i => Grid.item (entry i)) [] fun _ => rfl
  have read : (Grid.row (List.ofFn fun i => Grid.item (entry i))).read Value.entryReal =
      .ok (.row (List.ofFn fun i => .item (number i))) := by
    apply Grid.read_row_ofFn
    intro i
    rw [Grid.read, numeric i]
    rfl
  have reals : Grid.reals values = .ok ([n + 1], .row (List.ofFn fun i => .item (number i))) := by
    simp only [Grid.reals, Grid.ofEntries, grid, shape, read]
    rfl
  have entries : (Grid.row (List.ofFn fun i => Grid.item (number i))).entries = List.ofFn number :=
    Grid.rowEntries_ofFn_item number
  rw [medianOf, Value.length_of_items listed, List.length_ofFn, ok_bind, if_neg n.succ_ne_zero,
    reals]
  change Except.ok (if (Grid.entries _).isEmpty = true then _ else median (Grid.entries _)) = _
  rw [entries, List.ofFn_succ]
  rfl

variable {K : Type} [Field K] [LinearOrder K] [FloorRing K] {kit : FieldKit K}

private theorem medianOf_wholes {values : Value (Exact K kit)} {numbers : List Int}
    (filled : numbers ≠ []) (listed : values.items? = .some (numbers.map .int)) :
    medianOf values = .ok (median (numbers.map ofInt)) := by
  obtain ⟨first, rest, rfl⟩ := List.exists_cons_of_ne_nil filled
  rw [← List.ofFn_getElem_eq_map] at listed ⊢
  apply medianOf_row listed
  intro i
  rw [Exact.entryReal_int, Exact.ofInt_eq]

/-- There is one ascending row of given numbers only. -/
theorem eq_ascendingWholes {numbers sorted : List Int} (perm : sorted.Perm numbers)
    (ascends : sorted.Pairwise (· ≤ ·)) : sorted = ascendingWholes numbers := by
  apply List.Perm.eq_of_pairwise ?_ ascends (pairwise_ascendingWholes numbers)
    (perm.trans (ascendingWholes_perm numbers).symm)
  intro i j _ _ below above
  exact le_antisymm below above

private theorem getElem?_eq_getD {sorted : List Int} {position : Nat}
    (inside : position < sorted.length) : sorted[position]? = some (sorted.getD position 0) := by
  rw [List.getD_eq_getElem _ _ inside, List.getElem?_eq_getElem inside]

variable [IsStrictOrderedRing K]

/-- The median is between the numbers at both sides of the middle. -/
theorem exists_around_middleWhole {numbers : List Int} (occupied : numbers ≠ []) :
    ∃ lower ∈ numbers, ∃ upper ∈ numbers,
      (lower : K) ≤ middleWhole K (ascendingWholes numbers) ∧
        middleWhole K (ascendingWholes numbers) ≤ (upper : K) := by
  have perm := ascendingWholes_perm numbers
  have ascends := pairwise_ascendingWholes numbers
  have filled := ascendingWholes_ne_nil occupied
  have long := List.length_pos_iff.mpr filled
  have member {position : Nat} (inside : position < (ascendingWholes numbers).length) :
      (ascendingWholes numbers).getD position 0 ∈ numbers :=
    perm.mem_iff.mp (List.mem_of_getElem? (getElem?_eq_getD inside))
  exact ⟨_, member (by omega), _, member (by omega), le_middleWhole ascends filled,
    middleWhole_le ascends filled⟩

/-- **The median is central.** In exact arithmetic, a list or tuple of whole numbers that is not
empty has a median. It is the middle one of the numbers in ascending order, or half the sum of the
two central ones. It does not depend on the order in which the numbers are given, it is between the
least and the greatest one, and half of the numbers, rounded up, reach it, as half of them, rounded
up, do not exceed it. -/
theorem median_is_central {values : Value (Exact K kit)} {numbers : List Int}
    (filled : numbers ≠ []) (listed : values.items? = some (numbers.map .int)) :
    ∃ m : K, medianOf values = .ok (.finite m) ∧
      (∀ sorted : List Int, sorted.Perm numbers → sorted.Pairwise (· ≤ ·) →
        (numbers.length % 2 = 1 →
          ∃ central, sorted[numbers.length / 2]? = some central ∧ m = (central : K)) ∧
        (numbers.length % 2 = 0 →
          ∃ lower upper, sorted[numbers.length / 2 - 1]? = some lower ∧
            sorted[numbers.length / 2]? = some upper ∧ m = ((lower : K) + upper) / 2)) ∧
      (∀ (others : List Int) (given : Value (Exact K kit)), others.Perm numbers →
        given.items? = some (others.map .int) → medianOf given = .ok (.finite m)) ∧
      (∃ least greatest, numbers.min? = some least ∧ numbers.max? = some greatest ∧
        (least : K) ≤ m ∧ m ≤ (greatest : K)) ∧
      (numbers.length + 1) / 2 ≤ numbers.countP (fun i : Int => decide (m ≤ (i : K))) ∧
      (numbers.length + 1) / 2 ≤ numbers.countP (fun i : Int => decide ((i : K) ≤ m)) := by
  have long := List.length_pos_iff.mpr filled
  have value : median (numbers.map (ofInt : Int → Exact K kit)) =
      .finite (middleWhole K (ascendingWholes numbers)) := median_wholes filled
  refine ⟨middleWhole K (ascendingWholes numbers), ?_, ?_, ?_, ?_, half_le_countP filled,
    half_le_countP_le filled⟩
  · rw [medianOf_wholes filled listed, value]
  · intro sorted perm ascends
    rw [← eq_ascendingWholes perm ascends, ← perm.length_eq]
    rw [← perm.length_eq] at long
    constructor
    · intro odd
      exact ⟨_, getElem?_eq_getD (by omega), if_pos odd⟩
    · intro even
      refine ⟨_, _, getElem?_eq_getD (by omega), getElem?_eq_getD (by omega), ?_⟩
      exact if_neg (by omega)
  · intro others given perm other
    have occupied : others ≠ [] := fun empty => filled (List.nil_perm.mp (empty ▸ perm))
    rw [medianOf_wholes occupied other, median_of_perm perm, value]
  · obtain ⟨lower, member, upper, member', below, above⟩ :=
      exists_around_middleWhole (K := K) filled
    obtain ⟨least, minimal⟩ := Option.isSome_iff_exists.mp (List.isSome_min?_of_mem member)
    obtain ⟨greatest, maximal⟩ := Option.isSome_iff_exists.mp (List.isSome_max?_of_mem member)
    have atLeast := (List.min?_eq_some_iff.mp minimal).2 lower member
    have atMost := (List.max?_eq_some_iff.mp maximal).2 upper member'
    exact ⟨least, greatest, minimal, maximal, (Int.cast_le.mpr atLeast).trans below,
      above.trans (Int.cast_le.mpr atMost)⟩

/-- With three equal numbers below the middle and none at it, both halves are as small as they can
be. -/
theorem median_is_central_tied :
    ∃ m : ℚ, medianOf (.list ([7, 3, 10, 3, 3, 8].map .int)) =
        .ok (.finite m : Exact ℚ .lines) ∧ m = 5 ∧
      medianOf (.tuple ([3, 3, 3, 7, 8, 10].map .int)) = .ok (.finite m : Exact ℚ .lines) ∧
      3 ≤ [7, 3, 10, 3, 3, 8].countP (fun i : Int => decide (m ≤ (i : ℚ))) ∧
      3 ≤ [7, 3, 10, 3, 3, 8].countP (fun i : Int => decide ((i : ℚ) ≤ m)) := by
  have perm : ([3, 3, 3, 7, 8, 10] : List Int).Perm [7, 3, 10, 3, 3, 8] := by decide
  have listed : (Value.list ([7, 3, 10, 3, 3, 8].map .int) : Value (Exact ℚ .lines)).items? =
      some ([7, 3, 10, 3, 3, 8].map .int) := rfl
  obtain ⟨m, done, central, same, -, upper, lower⟩ :=
    median_is_central (List.cons_ne_nil 7 [3, 10, 3, 3, 8]) listed
  obtain ⟨_, _, ⟨⟩, ⟨⟩, half⟩ := (central _ perm (by decide)).2 rfl
  exact ⟨m, done, by rw [half]; norm_num, same _ _ perm rfl, upper, lower⟩

end Statistics

end SourceMetrics
