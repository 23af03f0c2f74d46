import SourceMetrics.Location
import SourceMetrics.Report.Module
import SourceMetrics.Traversal.Rule

/-!
# Building a module report

A walker opens scopes, closes them and hands over nodes with their rules. Each contribution of a
node goes to the innermost open scope and to the module as a whole, in this order; without an open
scope it goes to the module only. Open scopes are kept as positions in the list of functions,
innermost first.
-/

namespace SourceMetrics

/-- What a walker does. -/
inductive Event (R : Type) where
  /-- Hand over a node with its rule. -/
  | node (node rule : Value R)
  /-- Open a scope. -/
  | openScope (name location params : Value R)
  /-- Close the innermost scope, if one is open. -/
  | closeScope

/-- A report that is being built. -/
structure Builder (R : Type) where
  report : ModuleReport R
  /-- The positions of the open scopes, innermost first. -/
  scopes : List Nat := []
  /-- Whether no rule has reported dependencies yet. -/
  clear : Bool := true

namespace FunctionReport

variable {R : Type} [Arithmetic R]

/-- Add a contribution to a function report. Dependencies belong to the module and change no
function. -/
def take (f : FunctionReport R) : Contribution R → Except Fault (FunctionReport R)
  | .logical amount => do
    let logical ← f.logical.increase amount
    return { f with logical }
  | .cyclomatic amount => do
    let cyclomatic ← f.cyclomatic.increase amount
    return { f with cyclomatic }
  | .token tokenClass identifier => do
    let halstead ← f.halstead.record tokenClass identifier
    return { f with halstead }
  | .dependencies _ => .ok f

/-- Record an occurrence of a token under the name of a class. A name of no class and a value that
cannot be a token are refused, and then nothing is recorded. -/
def record (f : FunctionReport R) (name token : Value R) : Progress R (FunctionReport R) :=
  let taken := do
    let tokenClass ← TokenClass.ofName name
    f.take (.token tokenClass token)
  match taken with
  | .ok changed => { state := changed }
  | .error fault => { state := f, failure := some (.fault fault) }

end FunctionReport

namespace Builder

variable {R : Type} [Arithmetic R]

/-- A builder for a module at a location. -/
def start (location : Value R) : Except Fault (Builder R) := do
  let aggregate ← FunctionReport.opened .null location (.int 0)
  return { report := { aggregate } }

/-- The innermost open scope. -/
def current? (b : Builder R) : Option (FunctionReport R) :=
  b.scopes.head?.bind fun i => b.report.functions[i]?

/-- Replace the report of the function at a position. -/
def setFunction (b : Builder R) (i : Nat) (f : FunctionReport R) : Builder R :=
  { b with report := { b.report with functions := b.report.functions.set i f } }

/-- Add a contribution to the module as a whole. -/
def takeAggregate (b : Builder R) (c : Contribution R) : Progress R (Builder R) :=
  match b.report.aggregate.take c with
  | .ok aggregate => { state := { b with report := { b.report with aggregate } } }
  | .error fault => { state := b, failure := some (.fault fault) }

/-- Add a contribution to the innermost open scope. -/
def takeCurrent (b : Builder R) (c : Contribution R) : Progress R (Builder R) :=
  match b.scopes with
  | [] => { state := b }
  | i :: _ =>
    match b.report.functions[i]? with
    | none => { state := b }
    | some f =>
      match f.take c with
      | .ok changed => { state := b.setFunction i changed }
      | .error fault => { state := b, failure := some (.fault fault) }

/-- Add the dependency records of a contribution to the module. From then on a rule has reported
dependencies. -/
def takeDependencies (b : Builder R) : Contribution R → Builder R
  | .dependencies records =>
    { b with
      report := { b.report with dependencies := b.report.dependencies ++ records }
      clear := false }
  | _ => b

/-- Add a contribution. -/
def take (b : Builder R) (c : Contribution R) : Progress R (Builder R) :=
  let inner := b.takeCurrent c
  match inner.failure with
  | some _ => inner
  | none => (inner.state.takeDependencies c).takeAggregate c

/-- Hand over a node with its rule. -/
def process (call : Interpretation R) (b : Builder R) (node rule : Value R) :
    Progress R (Builder R) :=
  Progress.run take b (Rule.contributions call b.clear node rule)

/-- Open a scope. Its report is listed even if its number of parameters cannot be added to that of
the module, and the scope is not entered then. -/
def openScope (b : Builder R) (name location params : Value R) : Progress R (Builder R) :=
  match FunctionReport.opened name location params with
  | .error fault => { state := b, failure := some (.fault fault) }
  | .ok f =>
    let position := b.report.functions.length
    let report := { b.report with functions := b.report.functions ++ [f] }
    match report.aggregate.params.increase params with
    | .error fault => { state := { b with report }, failure := some (.fault fault) }
    | .ok sum =>
      { state :=
          { b with
            report := { report with aggregate := { report.aggregate with params := sum } }
            scopes := position :: b.scopes } }

/-- Close the innermost scope, if one is open. -/
def closeScope (b : Builder R) : Builder R :=
  { b with scopes := b.scopes.tail }

/-- Carry out one event. -/
def step (call : Interpretation R) (b : Builder R) : Event R → Progress R (Builder R)
  | .node node rule => b.process call node rule
  | .openScope name location params => b.openScope name location params
  | .closeScope => { state := b.closeScope }

end Builder

end SourceMetrics
