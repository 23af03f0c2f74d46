import SourceMetrics.Toml.Basic
import SourceMetrics.Value.Basic

/-!
# Configuration text in TOML: tables

A dotted key leads through tables to a value. Where it meets an array of tables it goes on in the
last one of them, except within an inline table. A key is set once, and a table that was written as
an inline table or an array is closed to later lines.
-/

namespace SourceMetrics.Toml

variable {R : Type}

/-- Change the table at a dotted key. Tables on the way are made as needed; a value on the way that
is no table is refused. -/
def changeAt (arrays : Bool) (change : Entries (Value R) → Except Refusal (Entries (Value R))) :
    List String → Entries (Value R) → Except Refusal (Entries (Value R))
  | [], entries => change entries
  | key :: rest, entries =>
    match entries.lookup key with
    | none => do
      let inner ← changeAt arrays change rest []
      return Entries.insert key (.dict inner) entries
    | some (.dict existing) => do
      let inner ← changeAt arrays change rest existing
      return Entries.insert key (.dict inner) entries
    | some (.list items) =>
      match arrays, items.getLast? with
      | true, some (.dict existing) => do
        let inner ← changeAt arrays change rest existing
        return Entries.insert key (.list (items.dropLast ++ [.dict inner])) entries
      | _, _ => .error .repeatedKey
    | some _ => .error .repeatedKey

/-- Set a key of a table that has not been set. -/
def setNew (key : String) (value : Value R) (entries : Entries (Value R)) :
    Except Refusal (Entries (Value R)) :=
  match entries.lookup key with
  | some _ => .error .repeatedKey
  | none => .ok (Entries.insert key value entries)

/-- Append an empty table to the array at a key of a table, which is made if there is none. -/
def appendNew (key : String) (entries : Entries (Value R)) :
    Except Refusal (Entries (Value R)) :=
  match entries.lookup key with
  | none => .ok (Entries.insert key (.list [.dict []]) entries)
  | some (.list items) => .ok (Entries.insert key (.list (items ++ [.dict []])) entries)
  | some _ => .error .repeatedKey

/-- Set a value at a dotted key. -/
def setAt (arrays : Bool) (value : Value R) (key : List String) (entries : Entries (Value R)) :
    Except Refusal (Entries (Value R)) :=
  match key.getLast? with
  | none => .error .invalidKey
  | some last => changeAt arrays (setNew last value) key.dropLast entries

/-- Make sure that there is a table at a dotted key. -/
def openAt (key : List String) (entries : Entries (Value R)) :
    Except Refusal (Entries (Value R)) :=
  changeAt true .ok key entries

/-- Append an empty table to the array at a dotted key. -/
def appendAt (key : List String) (entries : Entries (Value R)) :
    Except Refusal (Entries (Value R)) :=
  match key.getLast? with
  | none => .error .invalidKey
  | some last => changeAt true (appendNew last) key.dropLast entries

/-- Whether a value is closed to later lines. -/
def isClosed : Value R → Bool
  | .dict _ => true
  | .list _ => true
  | _ => false

/-- Whether a key lies at or below one of some keys. -/
def below (keys : List (List String)) (key : List String) : Bool :=
  keys.any fun k => k.isPrefixOf key

end SourceMetrics.Toml
