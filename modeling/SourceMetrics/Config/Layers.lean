import SourceMetrics.Config.Environment
import SourceMetrics.Config.Options
import SourceMetrics.Toml.Document

/-!
# Layers of configuration

Options come from several sources, each of which overrides those before it: the defaults, the
project's own file, a file that the caller names, environment variables, and what the caller gives
directly. A file is a source by the table that it holds, whatever the notation of the table is. In a
table, settings may be nested in a table `settings`, which is flattened. The merged mapping keeps a
key where it was first set, and it is read as options at the end.
-/

namespace SourceMetrics

/-- The table that a configuration file holds, or why it cannot be read. -/
abbrev FileTable (R : Type) := Except String (Entries (Value R))

/-- The sources of a configuration. -/
structure ConfigSources (R : Type) where
  /-- The project's own file, with its path, if it is there. -/
  project : Option (String × FileTable R) := none
  /-- The path of the file that the caller names, with the file if it is there. -/
  named : Option (String × Option (FileTable R)) := none
  /-- The environment variables. -/
  environment : Entries String := []
  /-- What the caller gives directly. -/
  overrides : Entries (Value R) := []

namespace Config

variable {R : Type} [Arithmetic R]

/-- The mapping before any source is read. -/
def defaults : Entries (Value R) :=
  ({} : Settings R).toMapping

/-- Merge one entry of a file. A table of settings is flattened. -/
def mergeEntry (merged : Entries (Value R)) (entry : String × Value R) :
    Except (Failure R) (Entries (Value R)) :=
  if entry.1 = "settings" then
    match entry.2 with
    | .dict entries => .ok (Entries.update merged entries)
    | value =>
      .error (.invalidConfig "settings" value "expected a [settings] table")
  else .ok (Entries.insert entry.1 entry.2 merged)

/-- Merge the table of a file, entry by entry. -/
def mergeTable (merged table : Entries (Value R)) : Except (Failure R) (Entries (Value R)) :=
  table.foldlM mergeEntry merged

/-- Merge a file. A file that cannot be read is refused under a title, by its path, and so is one of
which a fault keeps the table from being merged. -/
def mergeFile (title : String) (merged : Entries (Value R)) (path : String) (file : FileTable R) :
    Except (Failure R) (Entries (Value R)) :=
  match file with
  | .error reason => .error (refuse reason)
  | .ok table =>
    match mergeTable merged table with
    | .error (.fault fault) => .error (refuse fault.text)
    | outcome => outcome
where
  /-- Refuse the file. -/
  refuse (reason : String) : Failure R :=
    .diagnostic (.make .general s!"Invalid {title} '{path}': {reason}")

/-- Merge the project's own file, if it is there. -/
def mergeProject (sources : ConfigSources R) (merged : Entries (Value R)) :
    Except (Failure R) (Entries (Value R)) :=
  match sources.project with
  | none => .ok merged
  | some (path, file) => mergeFile "project config" merged path file

/-- Merge the file that the caller names. It has to be there. -/
def mergeNamed (sources : ConfigSources R) (merged : Entries (Value R)) :
    Except (Failure R) (Entries (Value R)) :=
  match sources.named with
  | none => .ok merged
  | some (path, none) =>
    .error (.diagnostic (.make .general ("Config file not found: " ++ path)))
  | some (path, some file) => mergeFile "config file" merged path file

/-- The mapping that all sources give together. -/
def merge (sources : ConfigSources R) : Except (Failure R) (Entries (Value R)) := do
  let merged ← mergeProject sources defaults
  let merged ← mergeNamed sources merged
  let given ← Environment.read sources.environment
  return Entries.update (Entries.update merged given) sources.overrides

/-- The name under which a caller names a file. Nothing else can be given directly under it. -/
def fileArgument : String := "config_file"

/-- The options that all sources give together. -/
def load (sources : ConfigSources R) : Except (Failure R) (Options R) := do
  if (sources.overrides.lookup fileArgument).isSome then
    throw (.fault (.repeatedArgument fileArgument))
  let merged ← merge sources
  Options.ofMapping merged

end Config

/-- What stands at the place of a configuration file. -/
inductive ConfigFile where
  | text (content : String)
  | directory

namespace ConfigFile

variable {R : Type}

/-- The table of a file. -/
def table [Arithmetic R] : ConfigFile → FileTable R
  | .text content => (Toml.read content).mapError Toml.Refusal.text
  | .directory => .error "Is a directory"

/-- The steps of a path: its segments without the empty ones and those that stay where they are. -/
def steps (path : String) : List String :=
  (path.splitOn "/").filter fun segment => !segment.isEmpty && segment ≠ "."

/-- What stands at a path below a directory, where files lie. A directory is there if it is the
directory itself, one above it, or one that has a file in it. -/
def stands (files : Entries ConfigFile) (path : String) : Option ConfigFile :=
  let place := "/".intercalate (steps path)
  let known := files.map fun entry => ("/".intercalate (steps entry.1), entry.2)
  match known.lookup place with
  | some file => some file
  | none =>
    if (steps path).all (· = "..") || known.any fun entry => (place ++ "/").isPrefixOf entry.1 then
      some .directory
    else none

/-- The place that a path names, as it is seen from a directory where files lie, and what stands
there. No file is known outside that directory. -/
def locate (directory : String) (files : Entries ConfigFile) (path : String) :
    String × Option ConfigFile :=
  let place := "/".intercalate (steps path)
  if "/".isPrefixOf path then
    let root := if "//".isPrefixOf path && !"///".isPrefixOf path then "//" else "/"
    (root ++ place, if place.isEmpty then some .directory else none)
  else
    (if place.isEmpty then directory else directory ++ "/" ++ place, stands files path)

end ConfigFile

namespace Config

variable {R : Type} [Arithmetic R]

/-- The name of a project's own configuration file. -/
def projectFileName : String := "complexity-insight.toml"

/-- The sources when files lie in a directory. -/
def sourcesIn (directory : String) (files : Entries ConfigFile) (named : Option String)
    (environment : Entries String) (overrides : Entries (Value R)) : ConfigSources R where
  project := (ConfigFile.stands files projectFileName).map fun file =>
    (directory ++ "/" ++ projectFileName, file.table)
  named := named.map fun path =>
    let (place, file) := ConfigFile.locate directory files path
    (place, file.map ConfigFile.table)
  environment
  overrides

end Config

end SourceMetrics
