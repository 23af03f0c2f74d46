import Mathlib.Data.List.Nodup
import SourceMetrics.Graph.Adjacency

/-! # Sorting by paths forgets the order that was there before

The order of paths is total, and two paths that may stand before each other are the same path. So
items with different paths can be sorted in one way only (`Path.sortBy_eq_of_perm`).
-/

namespace SourceMetrics

namespace Path

/-- A path stands before those that are deeper, and before those of its depth that are not
smaller. -/
theorem before_iff {a b : String} :
    before a b = true ↔ depth a < depth b ∨ depth a = depth b ∧ a ≤ b := by
  simp [before]

theorem before_total (a b : String) : before a b = true ∨ before b a = true := by
  simp only [before_iff]
  rcases Nat.lt_trichotomy (depth a) (depth b) with less | same | more
  · exact .inl (.inl less)
  · rcases String.le_total a b with first | second
    · exact .inl (.inr ⟨same, first⟩)
    · exact .inr (.inr ⟨same.symm, second⟩)
  · exact .inr (.inl more)

theorem before_trans {a b c : String} (first : before a b = true) (second : before b c = true) :
    before a c = true := by
  rw [before_iff] at first second ⊢
  rcases first with less | ⟨same, first⟩
  · rcases second with further | ⟨level, -⟩
    · exact .inl (Nat.lt_trans less further)
    · exact .inl (level ▸ less)
  · rcases second with further | ⟨level, second⟩
    · exact .inl (same ▸ further)
    · exact .inr ⟨same.trans level, String.le_trans first second⟩

/-- Depth and text together tell paths apart. -/
theorem before_antisymm {a b : String} (first : before a b = true) (second : before b a = true) :
    a = b := by
  rw [before_iff] at first second
  rcases first with less | ⟨same, first⟩
  · rcases second with more | ⟨same, -⟩
    · exact absurd more (Nat.lt_asymm less)
    · exact absurd same (Nat.ne_of_gt less)
  · rcases second with more | ⟨-, second⟩
    · exact absurd same (Nat.ne_of_gt more)
    · exact String.le_antisymm first second

variable {α : Type} (path : α → String)

/-- Items that are sorted by their paths stand in the order of the paths. -/
theorem pairwise_sortBy (items : List α) :
    (sortBy path items).Pairwise fun a b => before (path a) (path b) = true := by
  apply List.pairwise_mergeSort
  · intro a b c
    exact before_trans
  · intro a b
    simpa using before_total (path a) (path b)

/-- Items in the order of their paths stay as they are, also those of one path. -/
theorem sortBy_sortBy (items : List α) : sortBy path (sortBy path items) = sortBy path items :=
  List.mergeSort_of_pairwise (pairwise_sortBy path items)

/-- Items with different paths are sorted in one way only. -/
theorem sortBy_eq_of_perm {items others : List α} (perm : items.Perm others)
    (distinct : (items.map path).Nodup) : sortBy path items = sortBy path others := by
  apply List.Perm.eq_of_pairwise ?_ (pairwise_sortBy path items) (pairwise_sortBy path others)
  · exact (sortBy_perm path items).trans (perm.trans (sortBy_perm path others).symm)
  · intro a b left right first second
    have inItems := (sortBy_perm path items).mem_iff.mp left
    have inOthers := perm.mem_iff.mpr ((sortBy_perm path others).mem_iff.mp right)
    exact List.inj_on_of_nodup_map distinct inItems inOthers (before_antisymm first second)

end Path

end SourceMetrics
