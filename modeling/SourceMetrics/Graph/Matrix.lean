import SourceMetrics.Grid.Number
import SourceMetrics.Value.Field

/-!
# Graphs among the values

A graph on `n` nodes is given by a grid of `n` items, in which numbers other than zero mark edges. A
square matrix marks the edges one by one; a row marks all edges from a node at once, a single number
all edges of the graph, and rows without any entry mark none.
-/

namespace SourceMetrics.Matrix

variable {R : Type} [Arithmetic R]

/-- The number of columns of a matrix. -/
def width {α : Type} (rows : List (List α)) : Nat :=
  (rows.head?.map List.length).getD 0

/-- The square matrix of a size that has the same entry everywhere. -/
def uniform (size : Nat) (mark : Bool) : List (List Bool) :=
  List.replicate size (List.replicate size mark)

/-- The edges between a number of nodes that a grid of a shape marks. -/
def spread (size : Nat) (shape : List Nat) (marks : Grid Bool) :
    Except Fault (List (List Bool)) :=
  match shape with
  | [] => .ok (uniform size (marks.entries.any id))
  | [_] => .ok (marks.entries.map (List.replicate size))
  | [_, columns] =>
    if columns = size then .ok (marks.rows.map Grid.entries)
    else if columns = 0 then .ok (uniform size false)
    else .error .notSquare
  | _ => .error .notSquare

/-- Whether an item of a grid marks an edge. -/
def isEdge (value : Value R) : Except Fault Bool := do
  let x ← value.entryReal
  return !Arithmetic.isZero x

/-- The edges that a value marks, from each node to each node. -/
def edges (value : Value R) : Except Fault (List (List Bool)) := do
  let size ← value.length
  if size = 0 then
    return []
  let (shape, marks) ← Grid.ofEntries isEdge value
  spread size shape marks

end SourceMetrics.Matrix
