import SourceMetrics.Graph.Matrix
import SourceMetrics.Statistics

/-!
# The core of a project

A module belongs to the core if its fan-in and its fan-out both reach the median of all modules.
Fan-in is the sum of a row of the visibility matrix and fan-out that of a column, as words.
-/

namespace SourceMetrics.Graph

variable {R : Type} [Arithmetic R]

/-- The number of words. -/
def wordCount : Nat := 18446744073709551616

/-- The sum of whole numbers, as a word. -/
def wordSum (entries : List Int) : Int :=
  (entries.foldr (· + ·) 0).bmod wordCount

/-- The sums of the rows. -/
def fanIn (matrix : List (List Int)) : List Int :=
  matrix.map wordSum

/-- The entries of a column. -/
def column (matrix : List (List Int)) (j : Nat) : List Int :=
  matrix.map fun row => row.getD j 0

/-- The sums of the columns. -/
def fanOut (matrix : List (List Int)) : List Int :=
  (List.range (Matrix.width matrix)).map fun j => wordSum (column matrix j)

/-- Which sums reach the median of all of them. -/
def reachesMedian (R : Type) [Arithmetic R] (sums : List Int) : List Bool :=
  let numbers : List R := sums.map Arithmetic.ofInt
  numbers.map fun x => !Arithmetic.less x (Statistics.median numbers)

/-- Pair two rows up. A single item is paired with each item of the other row. -/
def pairUp {α : Type} (xs ys : List α) : Except Fault (List (α × α)) :=
  if xs.length = ys.length then .ok (xs.zip ys)
  else
    match xs, ys with
    | [x], _ => .ok (ys.map fun y => (x, y))
    | _, [y] => .ok (xs.map fun x => (x, y))
    | _, _ => .error .unpairedSums

/-- The number of modules in the core. -/
def coreCount (R : Type) [Arithmetic R] (matrix : List (List Int)) : Except Fault Nat := do
  if matrix.isEmpty then
    throw .noColumns
  let pairs ← pairUp (reachesMedian R (fanIn matrix)) (reachesMedian R (fanOut matrix))
  return pairs.countP fun pair => pair.1 && pair.2

/-- The share of modules in the core, in percent. -/
def coreShare (matrix : List (List Int)) : Except Fault R := do
  let count ← coreCount R matrix
  return Statistics.percentage count matrix.length

end SourceMetrics.Graph
