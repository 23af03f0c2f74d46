import SourceMetrics.Real.Rounding
import SourceMetrics.Text.Numeral
import SourceMetrics.Text.Quoted
import SourceMetrics.Value.Basic

/-!
# The written form of values

Messages quote values. A text stands for itself in a message and in quotes inside another value, and
a moment is written in two ways as well; every other value is written one way.
-/

namespace SourceMetrics.Value

variable {R : Type} [Arithmetic R]

/-- The items of a tuple between round brackets; a single item keeps its comma. -/
private def bracketed : List String → String
  | [] => "()"
  | [item] => "(" ++ item ++ ",)"
  | items => "(" ++ ", ".intercalate items ++ ")"

mutual

/-- The written form of a value inside another one. -/
def quoted : Value R → String
  | .null => "None"
  | .bool b => if b then "True" else "False"
  | .int i => toString i
  | .real x => Arithmetic.text x
  | .text s => Text.quoted s
  | .bytes bs => Text.quotedBytes bs
  | .moment m => m.quoted
  | .list items => "[" ++ ", ".intercalate (quotedItems items) ++ "]"
  | .tuple items => bracketed (quotedItems items)
  | .dict entries => "\x7b" ++ ", ".intercalate (quotedEntries entries) ++ "\x7d"
  | .record (.object _) _ => "<Obj>"
  | .record kind fields =>
    kind.typeName ++ "(" ++ ", ".intercalate (quotedFields fields) ++ ")"
  | .function _ => "<function>"

/-- The written forms of items. -/
def quotedItems : List (Value R) → List String
  | [] => []
  | item :: rest => quoted item :: quotedItems rest

/-- The written forms of the entries of a mapping. -/
def quotedEntries : List (String × Value R) → List String
  | [] => []
  | (key, value) :: rest => (Text.quoted key ++ ": " ++ quoted value) :: quotedEntries rest

/-- The written forms of the fields of a record. -/
def quotedFields : List (String × Value R) → List String
  | [] => []
  | (name, value) :: rest => (name ++ "=" ++ quoted value) :: quotedFields rest

end

/-- The written form of a value in a message. -/
def message : Value R → String
  | .text s => s
  | .moment m => m.message
  | value => value.quoted

/-- Whether an integer is short enough to be written. -/
def isShort (i : Int) : Bool :=
  Rounding.digitCount i.natAbs ≤ Numeral.digitLimit

mutual

/-- Whether a value can be written, which an integer of too many digits in it prevents. -/
def isWritable : Value R → Bool
  | .int i => isShort i
  | .list items => areWritable items
  | .tuple items => areWritable items
  | .dict entries => haveWritable entries
  | .record (.object _) _ => true
  | .record _ fields => haveWritable fields
  | _ => true

/-- Whether items can be written. -/
def areWritable : List (Value R) → Bool
  | [] => true
  | item :: rest => isWritable item && areWritable rest

/-- Whether the values of entries can be written. -/
def haveWritable : List (String × Value R) → Bool
  | [] => true
  | (_, value) :: rest => isWritable value && haveWritable rest

end

/-- Whether a condition that has this value holds. -/
def truthy : Value R → Bool
  | .null => false
  | .bool b => b
  | .int i => i != 0
  | .real x => !Arithmetic.isZero x
  | .text s => !s.isEmpty
  | .bytes bs => !bs.isEmpty
  | .moment _ => true
  | .list items => !items.isEmpty
  | .tuple items => !items.isEmpty
  | .dict entries => !entries.isEmpty
  | .record _ _ => true
  | .function _ => true

end SourceMetrics.Value
