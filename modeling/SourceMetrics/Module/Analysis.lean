import SourceMetrics.Config.Settings
import SourceMetrics.Log
import SourceMetrics.Module.Derivation
import SourceMetrics.Traversal.Walk

/-!
# Analysing a module

A walker goes through the tree of a module and builds its report; the figures of the report are
derived afterwards. A failure in either is reported as a diagnostic. The location of the tree is
read before the walk, and a fault there stays a plain fault.
-/

namespace SourceMetrics

/-- What a caller gives as a walker. -/
inductive Walker (R : Type) where
  /-- Nothing. -/
  | absent
  /-- A value of a type that cannot walk, although it may have something of that name. -/
  | unusable (typeName : String) (hasWalk : Bool)
  /-- A walker: what it does with a tree under given settings. -/
  | walks (walk : Value R → Settings R → Walk R)

namespace Walker

variable {R : Type}

/-- Whether a value has something that looks like a walk. -/
def looksUsable : Walker R → Bool
  | .absent => false
  | .unusable _ hasWalk => hasWalk
  | .walks _ => true

end Walker

namespace ModuleReport

variable {R : Type} [Arithmetic R]

/-- Whether a value can be a syntax tree: a mapping or an object. -/
def isTree : Value R → Bool
  | .dict _ | .record _ _ | .moment _ | .function _ => true
  | _ => false

/-- The walk of a tree, if tree and walker are usable. -/
def requireWalk (tree : Value R) (walker : Walker R) :
    Except (Failure R) (Value R → Settings R → Walk R) :=
  if isTree tree then
    match walker with
    | .absent => .error (.invalidInput "Invalid walker")
    | .unusable typeName _ =>
      .error (.invalidInput "Invalid walker.walk method" [("walker_type", typeName)])
    | .walks walk => .ok walk
  else
    .error (.invalidInput "Invalid syntax tree" [("tree_type", tree.typeName)])

/-- Carry out a walk and derive the figures. -/
def build (walk : Walk R) (b : Builder R) (rescaled : Bool) : Except (Failure R) (ModuleReport R) :=
  let done := walk.run b
  match done.failure with
  | some failure => .error failure
  | none => done.state.report.derive rescaled

/-- The report of a tree. The settings may have been refused, which counts only after tree and
walker have been accepted. A fault of the walk or of the derivation becomes a diagnostic. -/
def ofTree (tree : Value R) (walker : Walker R) (settings : Except (Failure R) (Settings R)) :
    Except (Failure R) (ModuleReport R) := do
  let walk ← requireWalk tree walker
  let accepted ← settings
  let b ← Builder.start (tree.field "loc")
  (build (walk tree accepted) b (accepted.flags .newmi)).mapError Failure.leaving

/-- What is logged about a report. -/
def analysisEntry (m : ModuleReport R) : Log.Entry :=
  let functions := m.functions.length
  let dependencies := m.dependencies.length
  let index := m.maintainability.message
  Log.trace "metrics.module"
    s!"Analyzed module: {functions} functions, {dependencies} dependencies, maintainability={index}"

/-- Analyse a module. -/
def analyze (tree : Value R) (walker : Walker R) (settings : Except (Failure R) (Settings R)) :
    Logged R (ModuleReport R) := do
  let m ← Logged.ofExcept (ofTree tree walker settings)
  Logged.entry (analysisEntry m)
  return m

end ModuleReport

end SourceMetrics
