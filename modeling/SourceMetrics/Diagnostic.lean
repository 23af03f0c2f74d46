import SourceMetrics.Fault

/-!
# Diagnostics

A diagnostic is the library's own report of a failure: a message with named details. Both are
values, since a walker may raise a diagnostic with any message and any details. Attributing a
diagnostic to a module makes its message a text.
-/

namespace SourceMetrics

/-- The kinds of diagnostic. -/
inductive DiagnosticKind where
  /-- Any failure of the library. -/
  | general
  /-- A failure of an analysis. -/
  | analysis
  /-- A tree, a walker or a list of modules that is malformed. -/
  | invalidInput
  /-- A failure inside a traversal or in the derivation after it. -/
  | traversal
  /-- A state that the counters should make impossible. -/
  | invariantViolation
  /-- A failure of the configuration. -/
  | configuration
  /-- A configuration value that is not allowed. -/
  | invalidConfig
deriving DecidableEq, Repr

namespace DiagnosticKind

/-- All kinds. -/
def all : List DiagnosticKind :=
  [.general, .analysis, .invalidInput, .traversal, .invariantViolation, .configuration,
   .invalidConfig]

/-- The name of a kind. -/
def name : DiagnosticKind → String
  | .general => "ComplexityInsightError"
  | .analysis => "AnalysisError"
  | .invalidInput => "InvalidInputError"
  | .traversal => "TraversalError"
  | .invariantViolation => "InvariantViolationError"
  | .configuration => "ConfigurationError"
  | .invalidConfig => "InvalidConfigError"

/-- The kind of a name. -/
def ofName? (name : String) : Option DiagnosticKind :=
  all.find? fun kind => kind.name = name

/-- The kinds above a kind, nearest first. -/
def ancestors : DiagnosticKind → List DiagnosticKind
  | .general => []
  | .analysis | .configuration => [.general]
  | .invalidInput | .traversal | .invariantViolation => [.analysis, .general]
  | .invalidConfig => [.configuration, .general]

/-- The kind whose way of being made a kind shares. -/
def maker : DiagnosticKind → DiagnosticKind
  | .analysis | .configuration => .general
  | kind => kind

/-- The arguments that a diagnostic of a kind has to be given. -/
def required : DiagnosticKind → List String
  | .general | .analysis | .configuration | .invalidInput => ["message"]
  | .traversal => ["cause"]
  | .invariantViolation => ["reason"]
  | .invalidConfig => ["key", "value", "reason"]

/-- The number of arguments that a diagnostic of a kind may be given beyond the required ones. -/
def optional : DiagnosticKind → Nat
  | .invariantViolation | .invalidConfig => 0
  | _ => 1

/-- Refuse a number of arguments that does not fit a kind. -/
def checkCount (kind : DiagnosticKind) (given : Nat) : Except Fault Unit :=
  let least := kind.required.length
  let most := least + kind.optional
  if given < least then
    .error (.missingArguments kind.maker.name (kind.required.drop given))
  else if most < given then .error (.surplusArguments kind.maker.name least most given)
  else .ok ()

end DiagnosticKind

/-- The library's report of a failure. -/
structure Diagnostic (R : Type) where
  kind : DiagnosticKind
  message : Value R
  details : Entries (Value R) := []

namespace Diagnostic

variable {R : Type} [Arithmetic R]

/-- What a diagnostic says: its message and, if there are any, its details in brackets. -/
def text (d : Diagnostic R) : String :=
  if d.details.isEmpty then d.message.message
  else d.message.message ++ " ("
    ++ ", ".intercalate (d.details.map fun detail => detail.1 ++ "=" ++ detail.2.message) ++ ")"

/-- What a diagnostic says, for a reader who needs a text: a message that stands alone has to be
one. -/
def requireText (d : Diagnostic R) : Except Fault String :=
  match d.details, d.message with
  | [], .text s => .ok s
  | [], message => .error (.notMessage message.typeName)
  | _, _ => .ok d.text

/-- Attribute a diagnostic to a module: the message starts with the module's path, and a detail
names it. -/
def attributeTo (path : Value R) (d : Diagnostic R) : Diagnostic R :=
  { d with
    message := .text (path.message ++ ": " ++ d.message.message)
    details := Entries.insert "module" (.text path.message) d.details }

/-- A diagnostic with a text and details that are texts. -/
def make (kind : DiagnosticKind) (message : String) (details : Entries String := []) :
    Diagnostic R :=
  { kind, message := .text message, details := details.map fun d => (d.1, .text d.2) }

/-- A tree, a walker or a list of modules is malformed. -/
def invalidInput (message : String) (details : Entries String := []) : Diagnostic R :=
  make .invalidInput message details

/-- The counters are in a state that should be impossible. -/
def invariantViolation (reason : Value R) : Diagnostic R :=
  { kind := .invariantViolation
    message := .text ("Invariant violated: " ++ reason.message)
    details := [("reason", reason)] }

/-- A configuration value is not allowed, for a reason. -/
def invalidConfig (key value reason : Value R) : Diagnostic R :=
  { kind := .invalidConfig
    message := .text ("Invalid configuration for " ++ key.message ++ ": " ++ value.message)
    details := [("key", key), ("value", .text value.message), ("reason", reason)] }

/-- The details that a value gives: the entries of a mapping, and none if the value counts as
false. -/
def detailsOf (value : Value R) : Except Fault (Entries (Value R)) :=
  match value with
  | .dict entries => .ok entries
  | _ => if value.truthy then .error (.missingAttribute value.typeName "items") else .ok []

/-- The diagnostic of a kind with given arguments, for the kinds that have no cause. -/
def ofArguments (kind : DiagnosticKind) (arguments : List (Value R)) :
    Except Fault (Diagnostic R) := do
  kind.checkCount arguments.length
  let argument := fun (i : Nat) => arguments.getD i .null
  match kind with
  | .invariantViolation => return invariantViolation (argument 0)
  | .invalidConfig => return invalidConfig (argument 0) (argument 1) (argument 2)
  | _ =>
    let details ← detailsOf (argument 1)
    return { kind, message := argument 0, details }

end Diagnostic

end SourceMetrics
