import SourceMetrics.Config.Settings

/-!
# Project options

Options say how a project is analysed: whether its structure is computed, how many workers there
are, and the settings of every module's analysis. In a mapping the options stand beside the
settings, which may also be nested under `settings`; what stands beside wins over what is nested.
-/

namespace SourceMetrics

/-- The options of a project run. -/
structure Options (R : Type) where
  /-- Whether only the module reports are wanted. -/
  skipCalculation : Bool := false
  /-- Whether visibility, change cost and core size are left out. -/
  noCoreSize : Bool := false
  /-- The number of workers, chosen by the program if not given. -/
  workers : Option Int := none
  settings : Settings R := {}

namespace Options

variable {R : Type} [Arithmetic R]

/-- The plain spelling of an option. -/
def plainSpelling (key : String) : String :=
  if key = "skipCalculation" then "skip_calculation"
  else if key = "noCoreSize" then "no_core_size"
  else key

/-- The number of workers under its key: an integer of at least one, or absent. -/
def readWorkers (fields : Entries (Value R)) : Except (Failure R) (Option Int) :=
  match fields.lookup "workers" with
  | none => .ok none
  | some .null => .ok none
  | some (.int count) =>
    if count < 1 then
      .error (.invalidConfig "workers" (.int count) "must be at least 1")
    else .ok (some count)
  | some value => .error (.invalidConfig "workers" value "expected an integer")

/-- Options from their values and settings. -/
def ofValues (values : Entries (Value R)) (settings : Settings R) :
    Except (Failure R) (Options R) := do
  let skipCalculation ← Settings.readBoolean values "skip_calculation" false
  let noCoreSize ← Settings.readBoolean values "no_core_size" false
  let workers ← readWorkers values
  return { skipCalculation, noCoreSize, workers, settings }

/-- Options from the fields of a record. -/
def ofFields (fields : Entries (Value R)) : Except (Failure R) (Options R) := do
  Settings.checkFields ["skip_calculation", "no_core_size", "workers", "settings"] fields
  let options ← ofValues fields {}
  match fields.lookup "settings" with
  | none => return options
  | some (.record .settings inner) => return { options with settings := Settings.ofRecord inner }
  | some value =>
    throw (.invalidConfig "settings" value "expected AnalysisSettings")

/-- The settings that a mapping of options nests. -/
def nested (values : Entries (Value R)) : Except (Failure R) (Entries (Value R)) :=
  match values.lookup "settings" with
  | none => .ok []
  | some .null => .ok []
  | some (.record .settings fields) => .ok (Settings.ofRecord fields).toMapping
  | some (.dict entries) => .ok entries
  | some value => .error (.invalidConfig "settings" value "expected a mapping")

/-- Whether a key, in its plain spelling, is an option of the project run. -/
def isOption (key : String) : Bool :=
  projectKeys.contains key

/-- The entries that stand beside the nested settings, with options in their plain spelling. -/
def flat (values : Entries (Value R)) : Entries (Value R) :=
  (values.filter fun entry => entry.1 ≠ "settings").map fun entry =>
    (plainSpelling entry.1, entry.2)

/-- The option values of a mapping, by their plain spelling; of two spellings the later one
counts. -/
def optionValues (values : Entries (Value R)) : Entries (Value R) :=
  Entries.ofPairs ((flat values).filter fun entry => isOption entry.1)

/-- The settings of a mapping: those that it nests, overridden by those that stand beside them. -/
def settingValues (values inner : Entries (Value R)) : Entries (Value R) :=
  Entries.update inner ((flat values).filter fun entry => !isOption entry.1)

/-- The options of a mapping. -/
def ofMapping (values : Entries (Value R)) : Except (Failure R) (Options R) := do
  let inner ← nested values
  let settings ← Settings.ofMapping (settingValues values inner)
  ofValues (optionValues values) settings

/-- The number of workers as a value. -/
def workersValue (o : Options R) : Value R :=
  match o.workers with
  | some count => .int count
  | none => .null

/-- Options as a record. -/
def toRecord (o : Options R) : Value R :=
  .record .options
    [("skip_calculation", .bool o.skipCalculation),
     ("no_core_size", .bool o.noCoreSize),
     ("workers", o.workersValue),
     ("settings", o.settings.toRecord)]

/-- Read options back from the fields of a record of options. -/
def ofRecord (fields : Entries (Value R)) : Options R :=
  { skipCalculation :=
      match fields.lookup "skip_calculation" with
      | some (.bool b) => b
      | _ => false
    noCoreSize :=
      match fields.lookup "no_core_size" with
      | some (.bool b) => b
      | _ => false
    workers :=
      match fields.lookup "workers" with
      | some (.int count) => some count
      | _ => none
    settings :=
      match fields.lookup "settings" with
      | some (.record .settings inner) => Settings.ofRecord inner
      | _ => {} }

/-- The options that a value stands for: the defaults if it is absent, options, or a mapping of
options. -/
def resolve : Value R → Except (Failure R) (Options R)
  | .null => .ok {}
  | .record .options fields => .ok (ofRecord fields)
  | .dict entries => ofMapping entries
  | value =>
    .error (.invalidConfig "options" value "expected ProjectOptions or a mapping")

end Options

end SourceMetrics
