import SourceMetrics.Path.Basic

/-!
# The order of paths

Paths are ordered by depth, and by their text among those of one depth.
-/

namespace SourceMetrics.Path

/-- The number of segments of a path. -/
def depth (path : String) : Nat :=
  (segments path.toList).length

/-- Whether a path may stand before another one. -/
def before (a b : String) : Bool :=
  depth a < depth b || (depth a == depth b && decide (a ≤ b))

/-- Sort by paths; items with the same path keep their order. -/
def sortBy {α : Type} (path : α → String) (items : List α) : List α :=
  items.mergeSort fun a b => before (path a) (path b)

theorem sortBy_perm {α : Type} (path : α → String) (items : List α) :
    (sortBy path items).Perm items :=
  List.mergeSort_perm _ _

end SourceMetrics.Path
