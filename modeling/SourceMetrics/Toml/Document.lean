import SourceMetrics.Toml.Value

/-!
# Configuration text in TOML: documents

A document is read line by line: blank lines, comments, pairs of a key and a value, and headers that
open a table or one more table of an array. A table is opened once by a header, but below each new
table of an array everything may be opened anew.
-/

namespace SourceMetrics.Toml

variable {R : Type}

/-- What has been read of a document. -/
structure Document (R : Type) where
  root : Entries (Value R) := []
  /-- The table that the pairs go to. -/
  header : List String := []
  /-- Tables that cannot be opened by a header any more. -/
  opened : List (List String) := []
  /-- Tables that cannot be opened after the next header. -/
  pending : List (List String) := []
  /-- Keys whose values are closed to later lines. -/
  closed : List (List String) := []

namespace Document

/-- Open a table by a header. -/
def openTable (d : Document R) (key : List String) : Except Refusal (Document R) := do
  let opened := d.pending ++ d.opened
  if opened.contains key || below d.closed key then
    throw .repeatedTable
  let root ← openAt key d.root
  return { d with root, header := key, opened := key :: opened, pending := [] }

/-- Open one more table of an array by a header. What is below the array is free again. -/
def openItem (d : Document R) (key : List String) : Except Refusal (Document R) := do
  if below d.closed key then
    throw .closedTable
  let free := fun k : List String => !key.isPrefixOf k
  let root ← appendAt key d.root
  return {
    root
    header := key
    opened := key :: (d.pending ++ d.opened).filter free
    closed := d.closed.filter free }

/-- The keys of the tables that a dotted key goes through, from the outermost one. -/
def through (header key : List String) : List (List String) :=
  (List.range (key.length - 1)).map fun i => header ++ key.take (i + 1)

/-- Set a value in the open table. -/
def set (d : Document R) (key : List String) (value : Value R) :
    Except Refusal (Document R) := do
  let way := through d.header key
  if way.any fun k => d.opened.contains k then
    throw .repeatedTable
  let parent := d.header ++ key.dropLast
  if below d.closed parent then
    throw .closedTable
  let full := d.header ++ key
  let root ← setAt true value full d.root
  return {
    d with
    root
    pending := way ++ d.pending
    closed := if isClosed value then full :: d.closed else d.closed }

/-- Read one statement from the start of a line. -/
def statement [Arithmetic R] (d : Document R) (cs : List Char) :
    Except Refusal (Document R × List Char) := do
  match cs with
  | '[' :: '[' :: rest =>
    let (key, more) ← readKey (rest.length + 1) (skipSpace rest)
    let d ← d.openItem key
    match more with
    | ']' :: ']' :: last => return (d, last)
    | _ => throw .unclosedArrayHeader
  | '[' :: rest =>
    let (key, more) ← readKey (rest.length + 1) (skipSpace rest)
    let d ← d.openTable key
    match more with
    | ']' :: last => return (d, last)
    | _ => throw .unclosedHeader
  | '#' :: _ => return (d, cs)
  | c :: _ =>
    if isBare c || isQuote c then
      let (key, value, rest) ← readPair (2 * cs.length + 2) cs
      let d ← d.set key value
      return (d, rest)
    else throw .invalidStatement
  | [] => return (d, cs)

/-- Read statements line by line. -/
def statements [Arithmetic R] : Nat → Document R → List Char → Except Refusal (Document R)
  | 0, d, _ => .ok d
  | fuel + 1, d, cs =>
    match skipSpace cs with
    | [] => .ok d
    | '\n' :: rest => statements fuel d rest
    | line => do
      let (d, rest) ← d.statement line
      match ← skipComment (skipSpace rest) with
      | [] => return d
      | '\n' :: more => statements fuel d more
      | _ => throw .expectedLineEnd

end Document

/-- Drop the carriage return before each line end. -/
def plainLineEnds : List Char → List Char
  | '\r' :: '\n' :: rest => '\n' :: plainLineEnds rest
  | c :: rest => c :: plainLineEnds rest
  | [] => []

/-- Read a document. -/
def read [Arithmetic R] (text : String) : Except Refusal (Entries (Value R)) := do
  let cs := plainLineEnds text.toList
  let d ← Document.statements (cs.length + 1) {} cs
  return d.root

end SourceMetrics.Toml
