import SourceMetrics.Fault
import SourceMetrics.Path.Normal
import SourceMetrics.Report.Module

/-!
# Which module a dependency means

A dependency names a module by a path, as it is seen from the directory of the module that declares
it. The extension may be left out, and then the one of the module in question is tried. Dependencies
of some kinds name a module of the project only by a path that starts at a directory; any other path
names a package.
-/

namespace SourceMetrics.Dependency

variable {R : Type}

/-- The kind of dependency whose paths have to start at a directory. -/
def relativeType : String := "CommonJS"

/-- A declared path, with the extension of the target if it has none of its own. -/
def withExtension (declared target : List Char) : List Char :=
  if Path.extension declared = [] then declared ++ Path.extension target else declared

/-- The path that a declared path means for a source and a target, in a working directory. -/
def resolve (working source declared target : String) : String :=
  String.ofList <|
    Path.absolute working.toList <|
      Path.join (Path.directory source.toList) (withExtension declared.toList target.toList)

/-- Whether a dependency is of the kind whose paths have to start at a directory. -/
def isRelativeType (dependency : Value R) : Bool :=
  match dependency.field "type" with
  | .text type => type = relativeType
  | _ => false

/-- Whether a dependency that a source declares means a target. -/
def leadsTo (working source : String) (dependency : Value R) (target : String) : Bool :=
  match dependency.field "path" with
  | .text declared =>
    (!isRelativeType dependency || Path.isRelative declared)
      && decide (resolve working source declared target = target)
  | _ => false

/-- The text of a value that has to be a path. -/
def pathText (value : Value R) : Except Fault String :=
  match value with
  | .text path => .ok path
  | _ => .error (.notPath value.typeName)

/-- Paths of bytes are resolved like texts, but no extension is lent to them. -/
def resolveBytes (working : String) (source declared : List UInt8) : List UInt8 :=
  let chars := fun (bytes : List UInt8) => bytes.map fun byte => Char.ofNat byte.toNat
  (Path.absolute working.toList (Path.join (Path.directory (chars source)) (chars declared))).map
    fun c => UInt8.ofNat c.toNat

/-- The path that values mean for a source, a declared path and a target. The target is looked at
only if the declared path has no extension, and before the source. -/
def resolveValue (working : String) (source declared target : Value R) :
    Except Fault (Value R) :=
  match declared, source with
  | .text path, _ => do
    let lender ← if Path.extension path.toList = [] then pathText target else pure ""
    let origin ← pathText source
    return .text (resolve working origin path lender)
  | .bytes path, .bytes origin => .ok (.bytes (resolveBytes working origin path))
  | .bytes _, _ => .error (.notPath source.typeName)
  | _, _ => .error (.notPath declared.typeName)

/-- Whether a dependency that a source declares means a target, among the values. -/
def check (working : String) (source dependency target : Value R) : Except Fault Bool :=
  match dependency.field "path" with
  | .text declared =>
    if isRelativeType dependency && !Path.isRelative declared then .ok false
    else do
      match ← resolveValue working source (.text declared) target, target with
      | .text resolved, .text path => return decide (resolved = path)
      | _, _ => return false
  | _ => .ok false

end SourceMetrics.Dependency
