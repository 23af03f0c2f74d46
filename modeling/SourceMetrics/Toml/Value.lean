import SourceMetrics.Toml.Moment
import SourceMetrics.Toml.Number
import SourceMetrics.Toml.Table

/-!
# Configuration text in TOML: values

Truth values, strings, dates and times, numbers, arrays and inline tables. Nested values are bounded
by the number of characters.
-/

namespace SourceMetrics.Toml

variable {R : Type}

/-- Skip blanks, line ends and comments between the items of an array. -/
def skipBetween : Nat → List Char → Except Refusal (List Char)
  | 0, cs => .ok cs
  | fuel + 1, cs =>
    match cs.dropWhile isSpaceOrLineEnd with
    | '#' :: rest => do
      let after ← skipComment ('#' :: rest)
      skipBetween fuel after
    | rest => .ok rest

mutual

/-- A value. -/
def readValue [Arithmetic R] : Nat → List Char → Except Refusal (Value R × List Char)
  | 0, _ => .error .invalidValue
  | fuel + 1, cs =>
    match cs with
    | [] => .error .invalidValue
    | 't' :: 'r' :: 'u' :: 'e' :: rest => .ok (.bool true, rest)
    | 'f' :: 'a' :: 'l' :: 's' :: 'e' :: rest => .ok (.bool false, rest)
    | '[' :: rest => readItems fuel [] rest
    | '\x7b' :: rest =>
      match skipSpace rest with
      | '\x7d' :: more => .ok (.dict [], more)
      | more => readPairs fuel [] [] more
    | c :: _ =>
      if isQuote c then (readString c cs).map fun read => (.text read.1, read.2)
      else
        match readMoment? cs with
        | some (some m, rest) => .ok (.moment m, rest)
        | some (none, _) => .error .invalidMoment
        | none => readNumber cs

/-- The items of an array, up to its closing bracket; the items read so far come last first. -/
def readItems [Arithmetic R] :
    Nat → List (Value R) → List Char → Except Refusal (Value R × List Char)
  | 0, _, _ => .error .unclosedArray
  | fuel + 1, read, cs => do
    match ← skipBetween (cs.length + 1) cs with
    | ']' :: rest => return (.list read.reverse, rest)
    | more =>
      let (value, rest) ← readValue fuel more
      match ← skipBetween (rest.length + 1) rest with
      | ']' :: last => return (.list (value :: read).reverse, last)
      | ',' :: last => readItems fuel (value :: read) last
      | _ => throw .unclosedArray

/-- The pairs of an inline table, up to its closing bracket, with the keys that are closed. -/
def readPairs [Arithmetic R] :
    Nat → Entries (Value R) → List (List String) → List Char → Except Refusal (Value R × List Char)
  | 0, _, _, _ => .error .unclosedTable
  | fuel + 1, entries, closed, cs => do
    let (key, value, rest) ← readPair fuel cs
    if below closed key then
      throw .closedTable
    let entries ← setAt false value key entries
    match skipSpace rest with
    | '\x7d' :: last => return (.dict entries, last)
    | ',' :: last =>
      readPairs fuel entries (if isClosed value then key :: closed else closed) (skipSpace last)
    | _ => throw .unclosedTable

/-- A key and its value. -/
def readPair [Arithmetic R] :
    Nat → List Char → Except Refusal (List String × Value R × List Char)
  | 0, _ => .error .invalidKey
  | fuel + 1, cs => do
    let (key, rest) ← readKey (cs.length + 1) cs
    match rest with
    | '=' :: more =>
      let (value, last) ← readValue fuel (skipSpace more)
      return (key, value, last)
    | _ => throw .missingEquals

end

end SourceMetrics.Toml
