import SourceMetrics.Graph.Core
import SourceMetrics.Graph.Visibility
import SourceMetrics.Log

/-!
# Structure scores

The visibility matrix of a graph with the two scores that come from it.
-/

namespace SourceMetrics

/-- The visibility matrix and its scores, in percent. -/
structure Closure (R : Type) where
  visibility : BitMatrix
  changeCost : R
  coreSize : R

namespace Graph

variable {R : Type} [Arithmetic R]

/-- Zeros and ones as whole numbers. -/
def toWholes (matrix : BitMatrix) : List (List Int) :=
  matrix.map fun row => row.map Int.ofNat

/-- Which entries of a matrix are not zero. -/
def toEdges (matrix : BitMatrix) : List (List Bool) :=
  matrix.map fun row => row.map fun entry => entry != 0

/-- The core size of a visibility matrix, zero if the density is zero. -/
def coreSize (visible : BitMatrix) (density : Value R) : Except Fault R :=
  if density.isZero then .ok Arithmetic.zero else coreShare (toWholes visible)

/-- The visibility matrix of a graph and its scores. -/
def closure (edges : List (List Bool)) (density : Value R) : Except Fault (Closure R) := do
  let visible := visibility edges
  let size ← coreSize visible density
  return { visibility := visible, changeCost := changeCost edges, coreSize := size }

/-- What is logged about structure scores. -/
def closureEntry (c : Closure R) : Log.Entry :=
  let cost := Arithmetic.twoPlaces c.changeCost
  let size := Arithmetic.twoPlaces c.coreSize
  Log.trace "graph.closure" s!"Closure: change cost={cost}%, core size={size}%"

/-- Compute structure scores and log them. -/
def closeAndScore (edges : List (List Bool)) (density : Value R) : Logged R (Closure R) := do
  let c ← Logged.ofExcept (closure edges density)
  Logged.entry (closureEntry c)
  return c

/-- Compute the structure scores of the graph that a matrix among the values marks. -/
def scoreMatrix (matrix density : Value R) : Logged R (Closure R) := do
  let edges ← Logged.ofExcept (Matrix.edges matrix)
  closeAndScore edges density

end Graph

end SourceMetrics
