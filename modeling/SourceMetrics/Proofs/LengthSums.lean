import SourceMetrics.Graph.Distance
import SourceMetrics.Proofs.Exact

/-! # Sums of lengths

A length is a number that is not negative; it may be infinite. A model of the real numbers may round
a sum of lengths, but not below one of its terms, and it may have two zeros, but equal lengths have
equal sums (`Arithmetic.AddsLengths`). Then a length that is compared with a longer one stays the
same length (`Arithmetic.SameLength.shorter_of_le`). Where no zero has the negative sign, a sum does
not even tell equal terms apart.
-/

namespace SourceMetrics

namespace Arithmetic

section

variable {R : Type} [Arithmetic R]

/-- A number that is not negative, or the positive infinite value. -/
def IsLength (x : R) : Prop :=
  isNaN x = false ∧ less x zero = false

instance : DecidablePred (IsLength : R → Prop) := fun x =>
  inferInstanceAs (Decidable (isNaN x = false ∧ less x zero = false))

/-- A length that is not the negative zero. -/
def IsPlainLength (x : R) : Prop :=
  IsLength x ∧ isNegative x = false

/-- Lengths of which none is less than the other one. -/
def SameLength (x y : R) : Prop :=
  (IsLength x ∧ IsLength y) ∧ less x y = false ∧ less y x = false

end

/-- Lengths stand in a linear order, in which no sum is less than one of its terms. -/
class AddsLengths (R : Type) [Arithmetic R] : Prop where
  total : ∀ {x y : R}, IsLength x → IsLength y → less x y = false ∨ less y x = false
  trans : ∀ {x y z : R}, IsLength x → IsLength y → IsLength z →
    less y x = false → less z y = false → less z x = false
  equal_of_same : ∀ {x y : R}, SameLength x y → equal x y = true
  isLength_add : ∀ {x y : R}, IsLength x → IsLength y → IsLength (add x y)
  left_le_add : ∀ {x y : R}, IsLength x → IsLength y → less (add x y) x = false
  right_le_add : ∀ {x y : R}, IsLength x → IsLength y → less (add x y) y = false
  add_congr : ∀ {x x' y y' : R}, SameLength x x' → SameLength y y' →
    SameLength (add x y) (add x' y')
  isNegative_add : ∀ {x y : R}, IsPlainLength x → IsPlainLength y → isNegative (add x y) = false
  add_plain : ∀ {x x' y y' : R}, IsPlainLength x → IsPlainLength x' → IsPlainLength y →
    IsPlainLength y' → SameLength x x' → SameLength y y' → add x y = add x' y'

variable {R : Type} [Arithmetic R]

/-- The shorter one of two distances of which the first is a number. -/
theorem shorter_of_number {x : R} (number : isNaN x = false) (y : R) :
    PathWeight.shorter x y = if less x y then x else y := by
  change (if (less x y || isNaN x) = true then x else y) = _
  rw [number, Bool.or_false]

/-- The shorter of two lengths is one of them. -/
theorem shorter_cases (x y : R) : PathWeight.shorter x y = x ∨ PathWeight.shorter x y = y := by
  change (if (less x y || isNaN x) = true then x else y) = x ∨ (if _ then x else y) = y
  split
  · exact .inl rfl
  · exact .inr rfl

/-- Comparing with the same distance again changes nothing. -/
theorem shorter_shorter (x y : R) :
    PathWeight.shorter (PathWeight.shorter x y) y = PathWeight.shorter x y := by
  rcases shorter_cases x y with kept | replaced
  · rw [kept, kept]
  · rw [replaced]
    exact (shorter_cases y y).elim id id

namespace SameLength

theorem symm {x y : R} (same : SameLength x y) : SameLength y x :=
  ⟨same.1.symm, same.2.symm⟩

variable [AddsLengths R]

theorem refl {x : R} (length : IsLength x) : SameLength x x := by
  have level := (AddsLengths.total length length).elim id id
  exact ⟨⟨length, length⟩, level, level⟩

theorem trans {x y z : R} (first : SameLength x y) (second : SameLength y z) : SameLength x z := by
  obtain ⟨⟨left, center⟩, below, above⟩ := first
  obtain ⟨⟨-, right⟩, below', above'⟩ := second
  exact ⟨⟨left, right⟩, AddsLengths.trans right center left below' below,
    AddsLengths.trans left center right above above'⟩

/-- Same lengths are compared alike. -/
theorem less_eq {x x' y y' : R} (first : SameLength x x') (second : SameLength y y') :
    less x y = less x' y' := by
  have keeps {x x' y y' : R} (first : SameLength x x') (second : SameLength y y')
      (notLess : less x y = false) : less x' y' = false := by
    obtain ⟨⟨left, left'⟩, -, above⟩ := first
    obtain ⟨⟨right, right'⟩, below, -⟩ := second
    have near := AddsLengths.trans right left left' notLess above
    exact AddsLengths.trans right' right left' below near
  rw [Bool.eq_iff_iff, ← Bool.not_eq_false, ← Bool.not_eq_false]
  exact not_congr ⟨keeps first second, keeps first.symm second.symm⟩

/-- The shorter one of two lengths is the same for the same lengths. -/
theorem shorter {x x' y y' : R} (first : SameLength x x') (second : SameLength y y') :
    SameLength (PathWeight.shorter x y) (PathWeight.shorter x' y') := by
  rw [shorter_of_number first.1.1.1, shorter_of_number first.1.2.1, less_eq first second]
  split
  · exact first
  · exact second

/-- A length that is not above another one is still the same after a comparison with it. -/
theorem shorter_of_le {x y : R} (length : IsLength x) (other : IsLength y)
    (notLess : less y x = false) : SameLength (PathWeight.shorter x y) x := by
  rw [shorter_of_number length.1]
  split
  · exact refl length
  · next notAbove => exact ⟨⟨other, length⟩, notLess, Bool.eq_false_iff.mpr notAbove⟩

end SameLength

end Arithmetic

namespace Exact

open Arithmetic (IsLength SameLength)

variable {K : Type} [Field K] [LinearOrder K] [FloorRing K] {kit : FieldKit K}

/-- The exact lengths are the numbers that are not negative and the positive infinite value. -/
theorem isLength_iff {x : Exact K kit} :
    IsLength x ↔ (∃ q : K, 0 ≤ q ∧ x = .finite q) ∨ x = .infinite := by
  rw [IsLength, Arithmetic.zero, ofInt_eq, Int.cast_zero]
  change _ ∧ less x (.finite 0) = false ↔ _
  cases x with
  | finite q => simp [less, Arithmetic.isNaN]
  | infinite => simp [less, Arithmetic.isNaN]
  | negInfinite => simp [less]
  | nan => simp [Arithmetic.isNaN]

private theorem isLength_finite {q : K} (notNegative : 0 ≤ q) :
    IsLength (.finite q : Exact K kit) :=
  isLength_iff.mpr (.inl ⟨q, notNegative, rfl⟩)

private theorem isLength_infinite : IsLength (.infinite : Exact K kit) :=
  isLength_iff.mpr (.inr rfl)

private theorem isNegative_of_isLength {x : Exact K kit} (length : IsLength x) :
    Arithmetic.isNegative x = false := by
  rcases isLength_iff.mp length with ⟨q, notNegative, rfl⟩ | rfl
  · exact decide_eq_false notNegative.not_gt
  · rfl

omit [Field K] [FloorRing K] in
private theorem less_self (x : Exact K kit) : less x x = false := by
  cases x <;> simp [less]

/-- Exact lengths are known by their order. -/
theorem eq_of_sameLength {x y : Exact K kit} (same : SameLength x y) : x = y := by
  obtain ⟨⟨left, right⟩, below, above⟩ := same
  change less x y = false at below
  change less y x = false at above
  rcases isLength_iff.mp left with ⟨q, -, rfl⟩ | rfl <;>
    rcases isLength_iff.mp right with ⟨r, -, rfl⟩ | rfl <;>
    simp [less] at below above ⊢
  exact le_antisymm above below

variable [IsStrictOrderedRing K]

private theorem add_lengths {x y : Exact K kit} (first : IsLength x) (second : IsLength y) :
    IsLength (add x y) ∧ less (add x y) x = false ∧ less (add x y) y = false := by
  rcases isLength_iff.mp first with ⟨q, notNegative, rfl⟩ | rfl <;>
    rcases isLength_iff.mp second with ⟨r, notNegative', rfl⟩ | rfl
  · refine ⟨isLength_finite (add_nonneg notNegative notNegative'), ?_⟩
    simp [add, less, notNegative, notNegative']
  · exact ⟨isLength_infinite, rfl, rfl⟩
  · exact ⟨isLength_infinite, rfl, rfl⟩
  · exact ⟨isLength_infinite, rfl, rfl⟩

instance : Arithmetic.AddsLengths (Exact K kit) where
  total := by
    intro x y first second
    change less x y = false ∨ less y x = false
    rcases isLength_iff.mp first with ⟨q, -, rfl⟩ | rfl <;>
      rcases isLength_iff.mp second with ⟨r, -, rfl⟩ | rfl <;>
      simp [less, le_total]
  trans := by
    intro x y z first second third
    change less y x = false → less z y = false → less z x = false
    rcases isLength_iff.mp first with ⟨q, -, rfl⟩ | rfl <;>
      rcases isLength_iff.mp second with ⟨r, -, rfl⟩ | rfl <;>
      rcases isLength_iff.mp third with ⟨s, -, rfl⟩ | rfl <;>
      simp [less]
    exact le_trans
  equal_of_same := by
    intro x y same
    obtain rfl := eq_of_sameLength same
    change equal x x = true
    rcases isLength_iff.mp same.1.1 with ⟨q, -, rfl⟩ | rfl <;> simp [equal]
  isLength_add first second := (add_lengths first second).1
  left_le_add first second := (add_lengths first second).2.1
  right_le_add first second := (add_lengths first second).2.2
  add_congr first second := by
    obtain rfl := eq_of_sameLength first
    obtain rfl := eq_of_sameLength second
    have sum := (add_lengths first.1.1 second.1.1).1
    exact ⟨⟨sum, sum⟩, less_self _, less_self _⟩
  isNegative_add first second := isNegative_of_isLength (add_lengths first.1 second.1).1
  add_plain _ _ _ _ first second := by
    rw [eq_of_sameLength first, eq_of_sameLength second]

end Exact

end SourceMetrics
