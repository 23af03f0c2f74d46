import SourceMetrics.Graph.Distance
import SourceMetrics.Report.Project
import SourceMetrics.Statistics

/-!
# Visibility and change cost

A module sees another one if it depends on it, directly or by way of others. The change cost is the
share of pairs of modules of which the first sees the second; here a module sees itself.
-/

namespace SourceMetrics.Graph

variable {R : Type} [Arithmetic R]

/-- The exact distances between nodes along edges. -/
def distances (edges : List (List Bool)) : List (List Distance) :=
  close (seed edges)

/-- Which nodes can be reached from which, each node from itself. -/
def reach (edges : List (List Bool)) : List (List Bool) :=
  (distances edges).map fun row => row.map Distance.isReachable

/-- Which nodes other than itself can be reached from a node, as zeros and ones. -/
def visibility (edges : List (List Bool)) : BitMatrix :=
  (reach edges).zipIdx.map fun row =>
    row.1.zipIdx.map fun entry => if entry.1 && row.2 ≠ entry.2 then 1 else 0

/-- The number of pairs of nodes of which the second can be reached from the first. -/
def reachCount (edges : List (List Bool)) : Nat :=
  (reach edges).flatten.countP id

/-- The share of pairs of nodes of which the second can be reached from the first, in percent. -/
def changeCost (edges : List (List Bool)) : R :=
  Statistics.percentage (reachCount edges) (edges.length * edges.length)

end SourceMetrics.Graph
