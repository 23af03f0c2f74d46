import SourceMetrics.Diagnostic

/-!
# Failures

What goes wrong is a fault or a diagnostic. A fault inside a traversal is turned into a diagnostic
(`Failure.leaving`); elsewhere it reaches the caller as it is.
-/

namespace SourceMetrics

/-- What went wrong. -/
inductive Failure (R : Type) where
  | fault (cause : Fault)
  | diagnostic (report : Diagnostic R)

/-- A computation that may only meet faults, among others. -/
instance {R : Type} : MonadLift (Except Fault) (Except (Failure R)) :=
  ⟨Except.mapError Failure.fault⟩

namespace Failure

variable {R : Type} [Arithmetic R]

/-- The kind of error that a failure counts as. -/
def kindName : Failure R → String
  | .fault f => f.kindName
  | .diagnostic d => d.kind.name

/-- What a failure says. -/
def text : Failure R → String
  | .fault f => f.text
  | .diagnostic d => d.text

/-- What a failure says, for a reader who needs a text. -/
def requireText : Failure R → Except Fault String
  | .fault f => .ok f.text
  | .diagnostic d => d.requireText

/-- The diagnostic of a traversal that a failure ended. It says what the failure says, or its kind
if it says nothing, and a detail names the kind. -/
def traversal (cause : Failure R) (details : Entries (Value R) := []) : Diagnostic R :=
  { kind := .traversal
    message := .text (if cause.text.isEmpty then cause.kindName else cause.text)
    details := Entries.update [("error_type", .text cause.kindName)] details }

/-- The diagnostic of a traversal with a cause and given arguments after it. -/
def traversalOf (cause : Failure R) (arguments : List (Value R)) :
    Except Fault (Diagnostic R) := do
  DiagnosticKind.traversal.checkCount (arguments.length + 1)
  let _ ← cause.requireText
  match arguments.getD 0 .null with
  | .dict details => return traversal cause details
  | value => if value.truthy then throw (.notMapping value.typeName) else return traversal cause

/-- A failure as it leaves an analysis: a fault becomes a diagnostic, unless it is an order to stop.
A diagnostic stays as it is. -/
def leaving : Failure R → Failure R
  | .diagnostic d => .diagnostic d
  | .fault f => if f.isExit then .fault f else .diagnostic (traversal (.fault f))

/-- A tree, a walker or a list of modules is malformed. -/
def invalidInput (message : String) (details : Entries String := []) : Failure R :=
  .diagnostic (.invalidInput message details)

/-- A configuration value is not allowed, for a reason. A value that cannot be written cannot be
reported either. -/
def invalidConfig (key : String) (value : Value R) (reason : String) : Failure R :=
  if value.isWritable then .diagnostic (.invalidConfig (.text key) value (.text reason))
  else .fault .longInteger

end Failure

end SourceMetrics
