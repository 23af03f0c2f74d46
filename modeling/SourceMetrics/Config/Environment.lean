import SourceMetrics.Config.Settings
import SourceMetrics.Value.Numeral

/-!
# Configuration by environment variables

Every option and every flag can be given by a variable: `COMPLEXITY_` and its name in capitals. A
truth value is one of a few words; a number of workers is an integer in the digits of any script.
-/

namespace SourceMetrics.Environment

variable {R : Type}

/-- The truth value that a text says, whatever its case and the blanks around it. -/
def readTruth (s : String) : Except Fault Bool :=
  let word := String.ofList ((Text.strip Text.isBlank s.toList).map Text.lower)
  if ["true", "1", "yes", "on"].contains word then .ok true
  else if ["false", "0", "no", "off"].contains word then .ok false
  else .error (.notTruth s)

/-- The variable that gives an option or a flag. -/
def variableName (key : String) : String :=
  "COMPLEXITY_" ++ String.ofList (key.toList.map Char.toUpper)

/-- What a variable gives. -/
inductive Expected where
  | truth
  | integer

/-- Everything that can be given by a variable, in the order in which the variables are read. -/
def expected : List (String × Expected) :=
  [("skip_calculation", .truth), ("no_core_size", .truth), ("workers", .integer)]
    ++ Flag.all.map fun flag => (flag.name, .truth)

/-- Read the text of a variable. -/
def readValue (kind : Expected) (s : String) : Except Fault (Value R) :=
  match kind with
  | .truth => (readTruth s).map Value.bool
  | .integer => (Numeral.integerOfText s).map Value.int

/-- Read the variables of some keys, one after another. The first text that cannot be read is
refused. -/
def readAll (environment : Entries String) :
    List (String × Expected) → Except (Failure R) (Entries (Value R))
  | [] => .ok []
  | (key, kind) :: rest =>
    match environment.lookup (variableName key) with
    | none => readAll environment rest
    | some s =>
      match readValue kind s with
      | .error fault =>
        .error (.diagnostic
          (.make .general ("Invalid " ++ variableName key ++ ": " ++ fault.text)))
      | .ok value => do
        let others ← readAll environment rest
        return (key, value) :: others

/-- The options and flags that variables give. -/
def read (environment : Entries String) : Except (Failure R) (Entries (Value R)) :=
  readAll environment expected

end SourceMetrics.Environment
