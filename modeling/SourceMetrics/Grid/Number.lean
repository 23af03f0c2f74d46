import SourceMetrics.Grid.Basic
import SourceMetrics.Value.Number
import SourceMetrics.Value.Numeral

/-!
# Grids of numbers among the values

A grid of numbers is read from nested lists of one shape. Its items are numbers or texts of numbers;
as a number of the model, the absent value is no number.
-/

namespace SourceMetrics

namespace Value

variable {R : Type} [Arithmetic R]

/-- The number that an item of a grid stands for. -/
def entryReal (value : Value R) : Except Fault R :=
  match value with
  | .null => .ok Arithmetic.nan
  | .text s => Numeral.realOfText s
  | .bytes bs => Numeral.realOfBytes bs
  | _ => value.toReal

/-- The least and the greatest whole number that fit into a word. -/
def wordRange : Int × Int :=
  (-9223372036854775808, 9223372036854775807)

/-- A whole number that fits into a word. -/
def word (i : Int) : Except Fault Int :=
  if wordRange.1 ≤ i && i ≤ wordRange.2 then .ok i else .error .wordRange

/-- The whole part of a number. -/
def wholePart (x : R) : Except Fault Int :=
  match Arithmetic.whole? x with
  | some i => .ok i
  | none => .error (if Arithmetic.isNaN x then .nanWhole else .infiniteWhole)

/-- The whole number that an item of a grid stands for, which has to fit into a word. -/
def entryWhole (value : Value R) : Except Fault Int :=
  match value with
  | .text s => Numeral.integerOfText s >>= word
  | .bytes bs => Numeral.integerOfBytes bs >>= word
  | _ =>
    match value.number? with
    | some (.int i) => word i
    | some (.real x) => wholePart x >>= word
    | none => .error (.notNumber value.typeName)

end Value

namespace Grid

variable {R α : Type}

/-- Grids of more dimensions than this are not read. -/
def dimensionLimit : Nat := 64

/-- A grid among the values, with its shape. A value without a shape is refused before any item is
read, and so is one with too many dimensions. -/
def ofEntries (entry : Value R → Except Fault α) (value : Value R) :
    Except Fault (List Nat × Grid α) :=
  let grid := ofValue value
  match grid.shape? with
  | none => .error .raggedRows
  | some shape =>
    if dimensionLimit < shape.length then .error .raggedRows
    else (grid.read entry).map fun read => (shape, read)

/-- A grid of numbers of the model among the values, with its shape. -/
def reals [Arithmetic R] (value : Value R) : Except Fault (List Nat × Grid R) :=
  ofEntries Value.entryReal value

/-- A grid of whole numbers among the values, with its shape. -/
def wholes [Arithmetic R] (value : Value R) : Except Fault (List Nat × Grid Int) :=
  ofEntries Value.entryWhole value

end Grid

end SourceMetrics
