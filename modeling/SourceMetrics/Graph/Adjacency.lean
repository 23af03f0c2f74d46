import SourceMetrics.Graph.Dependency
import SourceMetrics.Log
import SourceMetrics.Path.Order
import SourceMetrics.Report.Project
import SourceMetrics.Statistics

/-!
# The adjacency matrix of a project

Rows and columns stand for the modules in the order of their paths. An entry is one if the module of
the row depends on the module of the column; a module does not depend on itself. The matrix is
filled pair by pair, and the edges are counted on the way. The first-order density is their share of
all entries.
-/

namespace SourceMetrics

namespace ModuleReport

variable {R : Type}

/-- The path of a module, empty if it is no text. -/
def pathText (m : ModuleReport R) : String :=
  match m.path with
  | .text path => path
  | _ => ""

/-- Whether the path of a module is a text. -/
def hasPath (m : ModuleReport R) : Bool :=
  match m.path with
  | .text _ => true
  | _ => false

/-- Refuse a module whose path is no text. -/
def requirePath (m : ModuleReport R) : Except Fault Unit := do
  let _ ← m.path.requireText "split"

/-- Whether a module declares a dependency on another one. -/
def dependsOn (working : String) (source target : ModuleReport R) : Bool :=
  source.dependencies.any fun dependency =>
    Dependency.leadsTo working source.pathText dependency target.pathText

/-- Modules in the order of their paths; modules of one path keep their order. -/
def sorted (reports : List (ModuleReport R)) : List (ModuleReport R) :=
  Path.sortBy pathText reports

end ModuleReport

namespace Graph

variable {R : Type} [Arithmetic R]

/-- What a search for edges has found so far. -/
structure EdgeSearch where
  matrix : BitMatrix
  /-- The number of edges that have been entered. -/
  edges : Nat

namespace EdgeSearch

/-- The search among so many modules before it has found anything. -/
def start (count : Nat) : EdgeSearch where
  matrix := List.replicate count (List.replicate count 0)
  edges := 0

/-- Enter an edge between two places, and count it. -/
def enter (found : EdgeSearch) (x y : Nat) : EdgeSearch where
  matrix := found.matrix.modify x fun row => row.set y 1
  edges := found.edges + 1

/-- Look at a pair of modules with their places. -/
def look (working : String) (source target : ModuleReport R × Nat) (found : EdgeSearch) :
    EdgeSearch :=
  if source.2 ≠ target.2 && source.1.dependsOn working target.1 then
    found.enter source.2 target.2
  else found

end EdgeSearch

/-- Look at all pairs of modules in a given order. -/
def findEdges (working : String) (reports : List (ModuleReport R)) : EdgeSearch :=
  reports.zipIdx.foldl
    (fun found source =>
      reports.zipIdx.foldl (fun found target => found.look working source target) found)
    (EdgeSearch.start reports.length)

/-- The adjacency matrix of modules in a given order. -/
def adjacencyMatrix (working : String) (reports : List (ModuleReport R)) : BitMatrix :=
  (findEdges working reports).matrix

/-- What is logged about an adjacency matrix. -/
def adjacencyEntry (modules edges : Nat) (density : R) : Log.Entry :=
  let share := Arithmetic.twoPlaces density
  Log.trace "graph.adjacency"
    s!"Adjacency matrix: {modules} modules, {edges} edges, density={share}%"

/-- The adjacency matrix of modules that have been put in order, and its density. -/
def measureAdjacency (working : String) (reports : List (ModuleReport R)) :
    Logged R (BitMatrix × R) := do
  let found := findEdges working reports
  let density : R := Statistics.percentage found.edges (reports.length * reports.length)
  Logged.entry (adjacencyEntry reports.length found.edges density)
  return (found.matrix, density)

/-- The adjacency matrix of modules in the order of their paths, and its density. -/
def buildAdjacency (working : String) (reports : List (ModuleReport R)) :
    Logged R (BitMatrix × R) := do
  let _ ← Logged.ofExcept (reports.forM fun m => m.requirePath)
  measureAdjacency working (ModuleReport.sorted reports)

end Graph

end SourceMetrics
