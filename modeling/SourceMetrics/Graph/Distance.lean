import SourceMetrics.Graph.Matrix

/-!
# Distances

A matrix of distances is closed by going through the nodes one after another: when a node has been
gone through, ways by that node count. Each round is computed from the matrix as it was before the
round.

The same rounds run on exact distances, which are whole numbers or infinite, on numbers of the
model, and on grids of these, item by item.
-/

namespace SourceMetrics

/-- What the closing of distances needs to know of distances. -/
class PathWeight (W : Type) where
  /-- The distance along one edge. -/
  step : W
  /-- The distance where there is no way. -/
  unreachable : W
  /-- The distance along one way after another. -/
  join : W → W → W
  /-- The shorter one of two distances. -/
  shorter : W → W → W

/-- An exact distance. -/
inductive Distance where
  | finite (length : Nat)
  | unreachable
deriving DecidableEq, Repr

namespace Distance

/-- The sum of two distances. -/
def join : Distance → Distance → Distance
  | .finite a, .finite b => .finite (a + b)
  | _, _ => .unreachable

/-- The shorter one of two distances. -/
def shorter : Distance → Distance → Distance
  | .finite a, .finite b => .finite (min a b)
  | .finite a, .unreachable => .finite a
  | .unreachable, b => b

/-- Whether there is a way. -/
def isReachable : Distance → Bool
  | .finite _ => true
  | .unreachable => false

instance : PathWeight Distance where
  step := .finite 1
  unreachable := .unreachable
  join := join
  shorter := shorter

end Distance

/-- Numbers of a model as distances. A distance that is no number makes the shorter one no number
too. -/
instance Arithmetic.pathWeight {R : Type} [Arithmetic R] : PathWeight R where
  step := Arithmetic.one
  unreachable := Arithmetic.infinite
  join := Arithmetic.add
  shorter a b := if Arithmetic.less a b || Arithmetic.isNaN a then a else b

/-- Grids of distances, item by item. -/
instance Grid.pathWeight {W : Type} [PathWeight W] : PathWeight (Grid W) where
  step := .item PathWeight.step
  unreachable := .item PathWeight.unreachable
  join := Grid.combine PathWeight.join
  shorter := Grid.combine PathWeight.shorter

namespace Graph

variable {W : Type} [PathWeight W]

/-- The distances along single edges: one step from each node to itself and along each edge. -/
def seed (edges : List (List Bool)) : List (List W) :=
  edges.zipIdx.map fun row =>
    row.1.zipIdx.map fun entry =>
      if entry.1 || row.2 = entry.2 then PathWeight.step else PathWeight.unreachable

/-- Let ways by a node count. -/
def relax (distances : List (List W)) (node : Nat) : List (List W) :=
  let onward := distances.getD node []
  distances.map fun row =>
    let through := row.getD node PathWeight.unreachable
    row.zipWith (fun direct rest => PathWeight.shorter direct (PathWeight.join through rest)) onward

/-- Let ways by some nodes count, one after another. -/
def closeOver (nodes : List Nat) (distances : List (List W)) : List (List W) :=
  nodes.foldl relax distances

/-- The distances along all ways. -/
def close (distances : List (List W)) : List (List W) :=
  closeOver (List.range distances.length) distances

/-- The distances along all ways, from a grid of numbers among the values. Its items are the
distances from each node to each node, which may be grids themselves. There has to be a column for
each row. -/
def closeMatrix {R : Type} [Arithmetic R] (matrix : Value R) : Except Fault (Grid R) := do
  let (shape, grid) ← Grid.reals matrix
  match shape with
  | [0] => return .row []
  | height :: columns :: _ =>
    if columns < height then
      throw .notSquare
    return .row ((close (grid.rows.map Grid.rows)).map .row)
  | _ => throw .notSquare

end Graph

end SourceMetrics
