import SourceMetrics.Graph.Core
import SourceMetrics.Grid.Number

/-!
# Stacks of matrices

A matrix may have several numbers in each cell, which makes it a stack of matrices. Fan-in and
fan-out are then counted in each layer, their medians are taken over all layers, and a module is in
the core once for each layer in which it reaches both.
-/

namespace SourceMetrics.Graph

variable {R : Type} [Arithmetic R]

/-- The sums of cells, layer by layer. -/
def layerSums (depth : Nat) (cells : List (List Int)) : List Int :=
  (List.range depth).map fun layer => wordSum (cells.map fun cell => cell.getD layer 0)

/-- The cells of a column. -/
def stackColumn (stack : List (List (List Int))) (j : Nat) : List (List Int) :=
  stack.map fun row => row.getD j []

/-- Which sums reach the median of all of them, layer by layer. -/
def stackReachesMedian (R : Type) [Arithmetic R] (sums : List (List Int)) : List (List Bool) :=
  let boundary : R := Statistics.median (sums.flatten.map Arithmetic.ofInt)
  sums.map fun layers => layers.map fun sum => !Arithmetic.less (Arithmetic.ofInt sum) boundary

/-- The number of modules in the core of a stack with a number of columns and layers, layer by
layer. -/
def stackCoreCount (R : Type) [Arithmetic R] (columns depth : Nat)
    (stack : List (List (List Int))) : Except Fault Nat := do
  let into := stack.map (layerSums depth)
  let out := (List.range columns).map fun j => layerSums depth (stackColumn stack j)
  let pairs ← pairUp (stackReachesMedian R into) (stackReachesMedian R out)
  return (pairs.flatMap fun pair => pair.1.zip pair.2).countP fun both => both.1 && both.2

/-- The core size of a visibility matrix among the values. Without any edge there is no core. -/
def coreSizeOf (matrix density : Value R) : Except Fault R :=
  if density.isZero then .ok Arithmetic.zero
  else do
    let (shape, grid) ← Grid.wholes matrix
    match shape with
    | [] => throw .notSquare
    | [_] => throw .noColumns
    | [_, _] => coreShare (grid.rows.map Grid.entries)
    | height :: columns :: layers =>
      let depth := layers.foldl (· * ·) 1
      let count ← stackCoreCount R columns depth
        (grid.rows.map fun row => row.rows.map Grid.entries)
      return Statistics.percentage count height

end SourceMetrics.Graph
