import SourceMetrics.Text.Digit
import SourceMetrics.Text.Quoted

/-!
# Configuration text in TOML: strings and keys

Reading takes the characters that are left and gives back those after what was read. Here are
blanks, comments, basic and literal strings on one line or on several ones, and bare, quoted and
dotted keys.
-/

namespace SourceMetrics.Toml

/-- Why a document was refused. -/
inductive Refusal where
  | invalidStatement
  | invalidKey
  | missingEquals
  | invalidValue
  | invalidMoment
  | invalidString
  | invalidCharacter
  | unclosedArray
  | unclosedTable
  | unclosedHeader
  | unclosedArrayHeader
  | repeatedTable
  | repeatedKey
  | closedTable
  | expectedLineEnd
deriving DecidableEq, Repr

/-- What a refusal says. -/
def Refusal.text : Refusal → String
  | .invalidStatement => "Invalid statement"
  | .invalidKey => "Invalid initial character for a key part"
  | .missingEquals => "Expected '=' after a key in a key/value pair"
  | .invalidValue => "Invalid value"
  | .invalidMoment => "Invalid date or datetime"
  | .invalidString => "Unterminated string"
  | .invalidCharacter => "Found invalid character"
  | .unclosedArray => "Unclosed array"
  | .unclosedTable => "Unclosed inline table"
  | .unclosedHeader => "Expected ']' at the end of a table declaration"
  | .unclosedArrayHeader => "Expected ']]' at the end of an array declaration"
  | .repeatedTable => "Cannot declare a table twice"
  | .repeatedKey => "Cannot overwrite a value"
  | .closedTable => "Cannot mutate immutable namespace"
  | .expectedLineEnd => "Expected newline or end of document after a statement"

/-- Blanks within a line. -/
def isSpace (c : Char) : Bool :=
  c = ' ' || c = '\t'

/-- Blanks and line ends. -/
def isSpaceOrLineEnd (c : Char) : Bool :=
  isSpace c || c = '\n'

/-- Skip blanks within a line. -/
def skipSpace : List Char → List Char :=
  List.dropWhile isSpace

/-- Characters of bare keys. -/
def isBare (c : Char) : Bool :=
  c.isAlphanum || c = '_' || c = '-'

/-- Control characters other than the tabulator, which stand nowhere in a document. -/
def isControl (c : Char) : Bool :=
  (c.toNat < 0x20 && c ≠ '\t') || c.toNat = 0x7F

/-- The value of a digit in base sixteen. -/
def hexDigit? (c : Char) : Option Nat :=
  if c.isDigit then some (c.toNat - 48)
  else if 'a'.toNat ≤ c.toNat && c.toNat ≤ 'f'.toNat then some (c.toNat - 87)
  else if 'A'.toNat ≤ c.toNat && c.toNat ≤ 'F'.toNat then some (c.toNat - 55)
  else none

/-- The value of a digit below a base. -/
def digitBelow? (base : Nat) (c : Char) : Option Nat :=
  (hexDigit? c).bind fun d => if d < base then some d else none

/-- Skip a comment at the end of a line. -/
def skipComment (cs : List Char) : Except Refusal (List Char) :=
  match cs with
  | '#' :: rest =>
    if (rest.takeWhile (· ≠ '\n')).any isControl then .error .invalidCharacter
    else .ok (rest.dropWhile (· ≠ '\n'))
  | _ => .ok cs

/-- The rest of a literal string, up to its closing quote. -/
def readLiteral (cs : List Char) : Except Refusal (String × List Char) :=
  let inside := cs.takeWhile (· ≠ Text.singleQuote)
  match cs.dropWhile (· ≠ Text.singleQuote) with
  | [] => .error .invalidString
  | _ :: rest =>
    if inside.any isControl then .error .invalidCharacter else .ok (String.ofList inside, rest)

/-- The character that a short escape stands for. -/
def shortEscape? : Char → Option Char
  | 'b' => some '\x08'
  | 't' => some '\t'
  | 'n' => some '\n'
  | 'f' => some '\x0c'
  | 'r' => some '\r'
  | '\\' => some '\\'
  | c => if c = Text.doubleQuote then some c else none

/-- The character of a code point written in base sixteen. -/
def codePoint? (cs : List Char) : Option Char := do
  let n ← Text.readDigits 16 hexDigit? cs
  if n.isValidChar then some (Char.ofNat n) else none

/-- An escape by a code point of so many digits, and the characters after it. -/
def readCode (width : Nat) (cs : List Char) : Option (Char × List Char) :=
  if cs.length < width then none
  else (codePoint? (cs.take width)).map fun c => (c, cs.drop width)

/-- What a backslash at the end of a line takes away: the line end, with blanks before it and blanks
and line ends after it. Nothing else may stand on the line. -/
def skipLineEnd (cs : List Char) : Option (List Char) :=
  match skipSpace cs with
  | [] => some []
  | '\n' :: rest => some (rest.dropWhile isSpaceOrLineEnd)
  | _ => none

/-- The characters that an escape stands for, and those after it. A string on several lines may also
escape a line end. -/
def readEscape (several : Bool) (cs : List Char) : Option (List Char × List Char) :=
  match cs with
  | [] => none
  | 'u' :: rest => (readCode 4 rest).map fun read => ([read.1], read.2)
  | 'U' :: rest => (readCode 8 rest).map fun read => ([read.1], read.2)
  | c :: rest =>
    if several && isSpaceOrLineEnd c then (skipLineEnd cs).map fun more => ([], more)
    else (shortEscape? c).map fun escaped => ([escaped], rest)

/-- Whether characters start with three quotes. -/
def startsWithThree (quote : Char) (cs : List Char) : Bool :=
  cs.take 3 = [quote, quote, quote]

/-- The characters of a basic string, up to what closes it, and those after that. A string on
several lines is closed by three quotes, any other one by a single quote. -/
def readBasic (several : Bool) :
    Nat → List Char → List Char → Except Refusal (List Char × List Char)
  | 0, _, _ => .error .invalidString
  | fuel + 1, read, cs =>
    match cs with
    | [] => .error .invalidString
    | '\\' :: rest =>
      match readEscape several rest with
      | some (escaped, more) => readBasic several fuel (escaped.reverse ++ read) more
      | none => .error .invalidString
    | c :: rest =>
      if c = Text.doubleQuote && !several then .ok (read.reverse, rest)
      else if several && startsWithThree Text.doubleQuote cs then .ok (read.reverse, cs.drop 3)
      else if isControl c && !(several && c = '\n') then .error .invalidCharacter
      else readBasic several fuel (c :: read) rest

/-- The characters before three quotes, and those after them. -/
def splitAtThree (quote : Char) : List Char → Option (List Char × List Char)
  | [] => none
  | c :: rest =>
    if startsWithThree quote (c :: rest) then some ([], rest.drop 2)
    else (splitAtThree quote rest).map fun split => (c :: split.1, split.2)

/-- The characters of a string on several lines, after its opening quotes. -/
def readSeveral (quote : Char) (cs : List Char) : Except Refusal (List Char × List Char) :=
  if quote = Text.doubleQuote then readBasic true (cs.length + 1) [] cs
  else
    match splitAtThree quote cs with
    | none => .error .invalidString
    | some (inside, rest) =>
      if inside.any fun c => isControl c && c ≠ '\n' then .error .invalidCharacter
      else .ok (inside, rest)

/-- A string on several lines, after its opening quotes. A line end right after them does not count,
and up to two quotes right before the closing ones belong to the string. -/
def readLong (quote : Char) (cs : List Char) : Except Refusal (String × List Char) := do
  let start :=
    match cs with
    | '\n' :: rest => rest
    | _ => cs
  let (inside, rest) ← readSeveral quote start
  let more := (rest.take 2).takeWhile (· = quote)
  return (String.ofList (inside ++ more), rest.drop more.length)

/-- A string on one line, after its opening quote. -/
def readShort (quote : Char) (cs : List Char) : Except Refusal (String × List Char) :=
  if quote = Text.doubleQuote then
    (readBasic false (cs.length + 1) [] cs).map fun read => (String.ofList read.1, read.2)
  else readLiteral cs

/-- A string that starts with a quote. -/
def readString (quote : Char) (cs : List Char) : Except Refusal (String × List Char) :=
  if startsWithThree quote cs then readLong quote (cs.drop 3) else readShort quote (cs.drop 1)

/-- Whether a character opens a string. -/
def isQuote (c : Char) : Bool :=
  c = Text.singleQuote || c = Text.doubleQuote

/-- One part of a key. -/
def readKeyPart (cs : List Char) : Except Refusal (String × List Char) :=
  match cs with
  | [] => .error .invalidKey
  | c :: rest =>
    if isQuote c then readShort c rest
    else if isBare c then
      .ok (String.ofList (cs.takeWhile isBare), cs.dropWhile isBare)
    else .error .invalidKey

/-- A key, which is a row of parts with dots between them. -/
def readKey : Nat → List Char → Except Refusal (List String × List Char)
  | 0, _ => .error .invalidKey
  | fuel + 1, cs => do
    let (part, rest) ← readKeyPart cs
    match skipSpace rest with
    | '.' :: more =>
      let (parts, last) ← readKey fuel (skipSpace more)
      return (part :: parts, last)
    | more => return ([part], more)

end SourceMetrics.Toml
