import SourceMetrics.Report.Function

/-!
# Locations

A location tells the first and the last line of a module or a function. It may say so directly, by
`start_line` and `end_line`, or through the `line` of its `start` and its `end`.
-/

namespace SourceMetrics

namespace Location

variable {R : Type}

/-- The first and the last line of a location, if it tells both. -/
def lines? (location : Value R) : Option (Value R × Value R) :=
  let first := location.attr "start_line"
  let last := location.attr "end_line"
  if !first.isNull && !last.isNull then
    some (first, last)
  else
    let first := (location.field "start").field "line"
    let last := (location.field "end").field "line"
    if !first.isNull && !last.isNull then some (first, last) else none

end Location

namespace FunctionReport

variable {R : Type} [Arithmetic R]

/-- The report of a scope that has just been opened, with the lines that its location tells. -/
def opened (name location params : Value R) : Except Fault (FunctionReport R) :=
  let report : FunctionReport R := { empty with name, params }
  match Location.lines? location with
  | none => .ok report
  | some (first, last) => do
    let difference ← last.minus first
    let physical ← difference.plus (.int 1)
    return { report with line := first, physical }

end FunctionReport

end SourceMetrics
