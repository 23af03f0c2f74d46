import SourceMetrics.Failure
import SourceMetrics.Text.Line
import SourceMetrics.Value.Field

/-!
# Logging

The library logs by returning entries along with its result (`Logged`). Where entries go is a matter
of the application: `Log.Sinks` says which of them a console and a log file get after logging was
set up.
-/

namespace SourceMetrics

namespace Log

/-- The levels of entries, from the least to the most severe. -/
inductive Level where
  | debug
  | info
  | warning
  | error
  | critical
deriving DecidableEq, Repr

namespace Level

/-- The name of a level. -/
def name : Level → String
  | .debug => "DEBUG"
  | .info => "INFO"
  | .warning => "WARNING"
  | .error => "ERROR"
  | .critical => "CRITICAL"

/-- How severe a level is. -/
def severity : Level → Nat
  | .debug => 10
  | .info => 20
  | .warning => 30
  | .error => 40
  | .critical => 50

/-- The level of a name, which may also be a shorter or an older one. -/
def ofName? : String → Option Level
  | "DEBUG" => some .debug
  | "INFO" => some .info
  | "WARNING" | "WARN" => some .warning
  | "ERROR" => some .error
  | "CRITICAL" | "FATAL" => some .critical
  | _ => none

end Level

/-- The name of the library's own logger, above all its others. -/
def root : String := "complexity_insight"

/-- The name of the logger that is asked for by a name: names outside the library are put under
it. -/
def loggerName : Option String → String
  | none => root
  | some name =>
    if name = root || (root ++ ".").isPrefixOf name then name else root ++ "." ++ name

/-- The name of the logger that a value asks for. -/
def loggerNameOf {R : Type} (value : Value R) : Except Fault String :=
  match value with
  | .null => .ok root
  | _ => do
    let name ← value.requireText "startswith"
    return loggerName (some name)

/-- An entry of the log. -/
structure Entry where
  logger : String
  level : Level
  message : String
deriving DecidableEq, Repr

/-- An entry for tracing, by a part of the library. -/
def trace (part message : String) : Entry :=
  { logger := loggerName (some part), level := .debug, message }

/-- Where entries go once logging has been set up. -/
structure Sinks where
  /-- Entries below this level are dropped. -/
  threshold : Level
  /-- Whether a log file is kept beside the console. -/
  file : Bool
deriving DecidableEq, Repr

namespace Sinks

/-- Set up logging. A quiet console shows errors only, whatever else is asked. -/
def setUp (verbose quiet file : Bool) : Sinks :=
  { threshold := if quiet then .error else if verbose then .debug else .warning
    file }

/-- The names of the handlers behind the sinks. -/
def handlers (sinks : Sinks) : List String :=
  "RichHandler" :: (if sinks.file then ["FileHandler"] else [])

/-- Whether an entry of a level passes. -/
def passes (sinks : Sinks) (level : Level) : Bool :=
  sinks.threshold.severity ≤ level.severity

/-- The lines that an entry adds to the log file, without the time. -/
def fileLines (sinks : Sinks) (entry : Entry) : List String :=
  if sinks.file && sinks.passes entry.level then
    let line := entry.logger ++ " - " ++ entry.level.name ++ " - " ++ entry.message ++ "\n"
    (Text.lines line.toList).map String.ofList
  else []

end Sinks

end Log

/-- A result, or the failure to give one, with the entries logged on the way. -/
structure Logged (R α : Type) where
  result : Except (Failure R) α
  log : List Log.Entry := []

namespace Logged

variable {R α β : Type}

/-- Go on with a result; the entries follow each other. -/
def bind (x : Logged R α) (f : α → Logged R β) : Logged R β :=
  match x.result with
  | .ok a =>
    let y := f a
    { result := y.result, log := x.log ++ y.log }
  | .error failure => { result := .error failure, log := x.log }

instance : Monad (Logged R) where
  pure a := { result := .ok a }
  bind := bind

/-- Log an entry. -/
def entry (e : Log.Entry) : Logged R Unit :=
  { result := .ok (), log := [e] }

/-- A computation that logs nothing. -/
def ofExcept (x : Except (Failure R) α) : Logged R α :=
  { result := x }

/-- Change the failure, if there is one. -/
def mapFailure (f : Failure R → Failure R) (x : Logged R α) : Logged R α :=
  { x with result := x.result.mapError f }

/-- Log one more entry if there is a failure. -/
def onFailure (f : Failure R → Log.Entry) (x : Logged R α) : Logged R α :=
  match x.result with
  | .ok _ => x
  | .error failure => { x with log := x.log ++ [f failure] }

@[simp] theorem result_pure (a : α) : (pure a : Logged R α).result = .ok a := rfl

@[simp] theorem result_entry (e : Log.Entry) : (entry (R := R) e).result = .ok () := rfl

@[simp] theorem result_ofExcept (x : Except (Failure R) α) : (ofExcept x).result = x := rfl

@[simp] theorem result_mapFailure (f : Failure R → Failure R) (x : Logged R α) :
    (x.mapFailure f).result = x.result.mapError f := rfl

@[simp] theorem result_onFailure (f : Failure R → Log.Entry) (x : Logged R α) :
    (x.onFailure f).result = x.result := by
  unfold onFailure
  split <;> rfl

/-- The result of a sequence does not depend on the log. -/
@[simp] theorem result_bind (x : Logged R α) (f : α → Logged R β) :
    (x >>= f).result = x.result >>= fun a => (f a).result := by
  change (bind x f).result = _
  unfold bind
  cases h : x.result <;> rfl

end Logged

end SourceMetrics
