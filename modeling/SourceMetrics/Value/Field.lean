import SourceMetrics.Fault

/-!
# Fields and items that have to be there

Reading a field that a value does not have, counting the items of a value that has none and visiting
them are refused.
-/

namespace SourceMetrics.Value

variable {R : Type}

/-- The field of that name, which has to be there. -/
def require (value : Value R) (name : String) : Except Fault (Value R) :=
  match value.field? name with
  | some found => .ok found
  | none =>
    match value with
    | .dict _ => .error (.missingKey name)
    | _ => .error (.missingAttribute value.typeName name)

/-- The number of items of a value. -/
def length (value : Value R) : Except Fault Nat :=
  match value with
  | .list items => .ok items.length
  | .tuple items => .ok items.length
  | .dict entries => .ok entries.length
  | .text s => .ok s.length
  | .bytes bs => .ok bs.length
  | _ => .error (.noLength value.typeName)

/-- The items of a value one by one: those of a list or a tuple, the keys of a mapping, the
characters of a text, the numbers of a row of bytes. -/
def each (value : Value R) : Except Fault (List (Value R)) :=
  match value with
  | .list items => .ok items
  | .tuple items => .ok items
  | .dict entries => .ok (entries.map fun entry => .text entry.1)
  | .text s => .ok (s.toList.map fun c => .text (String.singleton c))
  | .bytes bs => .ok (bs.map fun byte => .int byte.toNat)
  | _ => .error (.notIterable value.typeName)

/-- The text of a value that an operation on texts is applied to. -/
def requireText (value : Value R) (operation : String) : Except Fault String :=
  match value with
  | .text s => .ok s
  | .bytes _ => .error .bytesForText
  | _ => .error (.missingAttribute value.typeName operation)

end SourceMetrics.Value
