import SourceMetrics.Value.Text

/-!
# Faults

A fault is an operation that its arguments do not allow, or an error that a walker or a syntax rule
raised on its own. It counts as an error of some kind and says what is wrong.
-/

namespace SourceMetrics

/-- An operation that its arguments do not allow. Types are given by name. -/
inductive Fault where
  /-- An arithmetic operation on values that are not both numbers. -/
  | operands (operation left right : String)
  /-- A value that has no place in the order of numbers. -/
  | unordered (left right : String)
  /-- A value that is no number where one is needed. -/
  | notNumber (type : String)
  /-- A value that cannot be a token. -/
  | unhashable (type : String)
  /-- A value that has no number of items. -/
  | noLength (type : String)
  /-- A value that has no items to visit. -/
  | notIterable (type : String)
  /-- A value that is no mapping where one is needed. -/
  | notMapping (type : String)
  /-- A value that is no path where one is needed. -/
  | notPath (type : String)
  /-- A message that is no text. -/
  | notMessage (type : String)
  /-- A row of bytes where a text is needed. -/
  | bytesForText
  /-- A field that a record does not have. -/
  | unexpectedField (name : String)
  /-- An argument that is given twice. -/
  | repeatedArgument (name : String)
  /-- Arguments of a record that are not given. -/
  | missingArguments (type : String) (names : List String)
  /-- More arguments of a record than it takes, which is at least and at most so many. -/
  | surplusArguments (type : String) (least most given : Nat)
  /-- An integer that is out of the range of fraction numbers. -/
  | integerRange
  /-- A quotient of integers that is out of the range of fraction numbers. -/
  | quotientRange
  /-- An infinite number where a whole number is needed. -/
  | infiniteWhole
  /-- A whole number that does not fit into a word. -/
  | wordRange
  /-- No number where a whole number is needed. -/
  | nanWhole
  /-- A logarithm of a number that is not positive. -/
  | logarithm
  /-- Nested rows that differ in length or depth. -/
  | raggedRows
  /-- Row sums and column sums that do not pair up. -/
  | unpairedSums
  /-- A matrix that does not have the rows and columns that are asked for. -/
  | notSquare
  /-- A row where the rows of a matrix are summed. -/
  | noColumns
  /-- An entry that a mapping does not have. -/
  | missingKey (name : String)
  /-- An attribute that a value does not have. -/
  | missingAttribute (type name : String)
  /-- A token class that is neither operators nor operands, in its written form. -/
  | unknownTokenClass (written : String)
  /-- A text that says neither yes nor no. -/
  | notTruth (text : String)
  /-- A text that is no integer, in its written form. -/
  | notInteger (written : String)
  /-- A text that is no number, in its written form. -/
  | notReal (written : String)
  /-- A text that says an integer of too many digits. -/
  | tooManyDigits (digits : Nat)
  /-- An integer of too many digits to be written. -/
  | longInteger
  /-- An error raised by a walker or by a syntax rule. -/
  | raised (kind text : String)
deriving DecidableEq, Repr

namespace Fault

/-- The kind of error that a fault counts as. -/
def kindName : Fault → String
  | .operands .. | .unordered .. | .notNumber _ | .unhashable _ | .noLength _ | .notIterable _
  | .notMapping _ | .notPath _ | .notMessage _ | .bytesForText | .unexpectedField _
  | .repeatedArgument _ | .missingArguments .. | .surplusArguments .. => "TypeError"
  | .integerRange | .quotientRange | .infiniteWhole | .wordRange => "OverflowError"
  | .nanWhole | .logarithm | .raggedRows | .unpairedSums | .unknownTokenClass _ | .notTruth _
  | .notInteger _ | .notReal _ | .tooManyDigits _ | .longInteger => "ValueError"
  | .notSquare => "IndexError"
  | .noColumns => "AxisError"
  | .missingKey _ => "KeyError"
  | .missingAttribute .. => "AttributeError"
  | .raised kind _ => kind

/-- Whether a fault is an order to stop, and no error: nothing may hold it up. -/
def isExit (fault : Fault) : Bool :=
  ["BaseException", "GeneratorExit", "KeyboardInterrupt", "SystemExit"].contains fault.kindName

/-- Names in quotes, as an enumeration. -/
def enumerate : List String → String
  | [] => ""
  | [name] => s!"'{name}'"
  | [first, second] => s!"'{first}' and '{second}'"
  | first :: second :: rest =>
    let others := ", ".intercalate ((second :: rest).dropLast.map fun name => s!"'{name}'")
    let last := (second :: rest).getLastD second
    s!"'{first}', {others}, and '{last}'"

/-- The numbers of arguments that a record takes. -/
def arity (least most : Nat) : String :=
  if least = most then s!"{most}" else s!"from {least} to {most}"

/-- What a fault says. -/
def text : Fault → String
  | .operands operation left right =>
    s!"unsupported operand type(s) for {operation}: '{left}' and '{right}'"
  | .unordered left right =>
    s!"'<' not supported between instances of '{left}' and '{right}'"
  | .notNumber type => s!"must be real number, not {type}"
  | .unhashable type => s!"unhashable type: '{type}'"
  | .noLength type => s!"object of type '{type}' has no len()"
  | .notIterable type => s!"'{type}' object is not iterable"
  | .notMapping type => s!"'{type}' object is not a mapping"
  | .notPath type => s!"expected str, bytes or os.PathLike object, not {type}"
  | .notMessage type => s!"__str__ returned non-string (type {type})"
  | .bytesForText => "a bytes-like object is required, not 'str'"
  | .unexpectedField name => s!"unexpected field '{name}'"
  | .repeatedArgument name => s!"got multiple values for argument '{name}'"
  | .missingArguments type names =>
    let count := names.length
    let noun := if count = 1 then "argument" else "arguments"
    let listed := enumerate names
    s!"{type}.__init__() missing {count} required positional {noun}: {listed}"
  | .surplusArguments type least most given =>
    let taken := arity (least + 1) (most + 1)
    let counted := given + 1
    s!"{type}.__init__() takes {taken} positional arguments but {counted} were given"
  | .integerRange => "int too large to convert to float"
  | .quotientRange => "integer division result too large for a float"
  | .infiniteWhole => "cannot convert float infinity to integer"
  | .wordRange => "int too large to convert to a word"
  | .nanWhole => "cannot convert float NaN to integer"
  | .logarithm => "math domain error"
  | .raggedRows => "rows of different lengths"
  | .unpairedSums => "row sums and column sums do not pair up"
  | .notSquare => "matrix is not square"
  | .noColumns => "matrix has no columns"
  | .missingKey name => Text.quoted name
  | .missingAttribute type name => s!"'{type}' object has no attribute '{name}'"
  | .unknownTokenClass written => s!"Unknown Halstead metric: {written}"
  | .notTruth text => s!"expected true/false, got '{text}'"
  | .notInteger written => s!"invalid literal for int() with base 10: {written}"
  | .notReal written => s!"could not convert string to float: {written}"
  | .tooManyDigits digits =>
    let limit := Numeral.digitLimit
    s!"Exceeds the limit ({limit} digits) for integer string conversion: value has {digits} "
      ++ "digits; use sys.set_int_max_str_digits() to increase the limit"
  | .longInteger =>
    let limit := Numeral.digitLimit
    s!"Exceeds the limit ({limit} digits) for integer string conversion; "
      ++ "use sys.set_int_max_str_digits() to increase the limit"
  | .raised _ text => text

/-- The error of a kind with given arguments. Its text is that of its only argument, or of all of
them as a tuple; a missing key is shown in quotes. -/
def ofArguments {R : Type} [Arithmetic R] (kind : String) (arguments : List (Value R)) : Fault :=
  match arguments with
  | [] => .raised kind ""
  | [argument] => .raised kind (if kind = "KeyError" then argument.quoted else argument.message)
  | _ => .raised kind (Value.tuple arguments).quoted

end Fault

end SourceMetrics
