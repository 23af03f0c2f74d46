import SourceMetrics.Failure
import SourceMetrics.Value.Key

/-!
# Analysis settings

Five flags say what counts as a branch and how maintainability is scaled. Any other setting belongs
to the walker and is carried along as it is (`extra`).

Settings can be read from a mapping in two ways. As fields of a record they refine the defaults; as
a mapping of settings (`Settings.ofMapping`) they replace them, so a flag that is left out is off.
-/

namespace SourceMetrics

/-- The flags. -/
inductive Flag where
  /-- Count short-circuit operators as branches. -/
  | logicalor
  /-- Count each case of a switch as a branch. -/
  | switchcase
  /-- Count loops over keys as branches. -/
  | forin
  /-- Count catch clauses as branches. -/
  | trycatch
  /-- Scale the maintainability index from 0 to 100. -/
  | newmi
deriving DecidableEq, Repr

namespace Flag

/-- The flags in the order in which they are checked and listed. -/
def all : List Flag :=
  [.logicalor, .switchcase, .forin, .trycatch, .newmi]

/-- The name of a flag. -/
def name : Flag → String
  | .logicalor => "logicalor"
  | .switchcase => "switchcase"
  | .forin => "forin"
  | .trycatch => "trycatch"
  | .newmi => "newmi"

/-- The flag of a name. -/
def ofName? (name : String) : Option Flag :=
  all.find? fun flag => flag.name = name

/-- Whether a flag is on by default. -/
def default : Flag → Bool
  | .logicalor | .switchcase => true
  | .forin | .trycatch | .newmi => false

end Flag

/-- The settings of an analysis. -/
structure Settings (R : Type) where
  flags : Flag → Bool := Flag.default
  /-- Settings of the walker. -/
  extra : Entries (Value R) := []

/-- The keys that configure a project run and no analysis, in both spellings. -/
def projectKeys : List String :=
  ["skip_calculation", "no_core_size", "workers", "skipCalculation", "noCoreSize"]

namespace Settings

variable {R : Type} [Arithmetic R]

/-- A truth value under a key, or a default. Any other value is refused. -/
def readBoolean (values : Entries (Value R)) (key : String) (default : Bool) :
    Except (Failure R) Bool :=
  match values.lookup key with
  | none => .ok default
  | some (.bool b) => .ok b
  | some value => .error (.invalidConfig key value "expected a boolean")

/-- All flags of a mapping, with defaults for those that it leaves out. The first value that is no
truth value is refused. -/
def readFlags (values : Entries (Value R)) (default : Flag → Bool) :
    Except (Failure R) (Flag → Bool) := do
  let logicalor ← readBoolean values Flag.logicalor.name (default .logicalor)
  let switchcase ← readBoolean values Flag.switchcase.name (default .switchcase)
  let forin ← readBoolean values Flag.forin.name (default .forin)
  let trycatch ← readBoolean values Flag.trycatch.name (default .trycatch)
  let newmi ← readBoolean values Flag.newmi.name (default .newmi)
  return fun
    | .logicalor => logicalor
    | .switchcase => switchcase
    | .forin => forin
    | .trycatch => trycatch
    | .newmi => newmi

/-- Whether a key is a walker's setting: neither a flag nor a key of the project run. -/
def isExtra (key : String) : Bool :=
  (Flag.ofName? key).isNone && !projectKeys.contains key

/-- The settings of a mapping. A flag that it leaves out is off, keys of the project run are
ignored, and every other key is a walker's setting. -/
def ofMapping (values : Entries (Value R)) : Except (Failure R) (Settings R) := do
  let flags ← readFlags values fun _ => false
  return { flags, extra := values.filter fun entry => isExtra entry.1 }

/-- Refuse a field that is not among the known ones. -/
def checkFields (names : List String) (fields : Entries (Value R)) : Except (Failure R) Unit :=
  match fields.find? fun entry => !names.contains entry.1 with
  | some entry => .error (.fault (.unexpectedField entry.1))
  | none => .ok ()

/-- Settings from the fields of a record: flags that are left out have their defaults. -/
def ofFields (fields : Entries (Value R)) : Except (Failure R) (Settings R) := do
  checkFields (Flag.all.map Flag.name ++ ["extra"]) fields
  let flags ← readFlags fields Flag.default
  match fields.lookup "extra" with
  | none => return { flags }
  | some (.dict extra) => return { flags, extra }
  | some value => throw (.invalidConfig "extra" value "expected a mapping")

/-- The value of a setting: a flag, a walker's setting, or a default. -/
def get (s : Settings R) (key : String) (default : Value R) : Value R :=
  match Flag.ofName? key with
  | some flag => .bool (s.flags flag)
  | none => (s.extra.lookup key).getD default

/-- The value of the setting that a value names: a default if it is no text, unless it cannot name
anything. -/
def getValue (s : Settings R) (key default : Value R) : Except Fault (Value R) :=
  match key with
  | .text name => .ok (s.get name default)
  | _ => do
    let _ ← key.tokenKey
    return default

/-- The flags as entries. -/
def flagEntries (s : Settings R) : Entries (Value R) :=
  Flag.all.map fun flag => (flag.name, .bool (s.flags flag))

/-- All settings as one mapping. A flag overrides a walker's setting of its name. -/
def toMapping (s : Settings R) : Entries (Value R) :=
  Entries.update s.extra s.flagEntries

/-- Settings as a record. -/
def toRecord (s : Settings R) : Value R :=
  .record .settings (s.flagEntries ++ [("extra", .dict s.extra)])

/-- Read settings back from the fields of a record of settings. -/
def ofRecord (fields : Entries (Value R)) : Settings R :=
  { flags := fun flag =>
      match fields.lookup flag.name with
      | some (.bool b) => b
      | _ => flag.default
    extra :=
      match fields.lookup "extra" with
      | some (.dict extra) => extra
      | _ => [] }

/-- The settings that a value stands for: the defaults if it is absent, settings, or a mapping of
settings. -/
def resolve : Value R → Except (Failure R) (Settings R)
  | .null => .ok {}
  | .record .settings fields => .ok (ofRecord fields)
  | .dict entries => ofMapping entries
  | value =>
    .error (.invalidConfig "settings" value "expected AnalysisSettings or a mapping")

end Settings

end SourceMetrics
