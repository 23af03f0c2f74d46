import SourceMetrics.Value.Key

/-!
# Tallies of operators and operands

A tally counts the occurrences of tokens of one class. Every occurrence counts in `total`; a token
counts in `distinct` the first time it is seen, and it is listed then in the spelling that it had.
-/

namespace SourceMetrics

/-- The two classes of tokens. -/
inductive TokenClass where
  | operators
  | operands
deriving DecidableEq, Repr

namespace TokenClass

/-- The classes, in the order in which a node's tokens are recorded. -/
def all : List TokenClass :=
  [.operators, .operands]

/-- The name of a class. -/
def name : TokenClass → String
  | .operators => "operators"
  | .operands => "operands"

/-- The class of a name. -/
def ofName {R : Type} [Arithmetic R] (value : Value R) : Except Fault TokenClass :=
  match value with
  | .text "operators" => .ok .operators
  | .text "operands" => .ok .operands
  | _ => .error (.unknownTokenClass value.quoted)

end TokenClass

/-- The occurrences of the tokens of one class. -/
structure Tally (R : Type) where
  distinct : Value R := .int 0
  total : Value R := .int 0
  /-- Each token by its key and as it was first spelled, in order of first occurrence. -/
  identifiers : List (Key × Value R) := []

namespace Tally

variable {R : Type} [Arithmetic R]

/-- The names of the fields of tallies and of the measures derived from them. A token of this
spelling has a key of its own. -/
def reservedNames : List String :=
  ["distinct", "total", "identifiers", "operators", "operands", "length", "vocabulary",
   "difficulty", "volume", "effort", "bugs", "time"]

/-- Set the reserved names apart from the other keys. -/
def reserve : Key → Key
  | .text s => if reservedNames.contains s then .reserved s else .text s
  | key => key

/-- The key that a token is recorded under. -/
def key (token : Value R) : Except Fault Key :=
  token.tokenKey.map reserve

/-- The tokens as they were first spelled, in order of first occurrence. -/
def names (tally : Tally R) : List (Value R) :=
  tally.identifiers.map (·.2)

/-- Whether a token with that key has been seen. -/
def seen (tally : Tally R) (k : Key) : Bool :=
  k.recurs && tally.identifiers.any fun entry => entry.1 = k

/-- Count an occurrence of a token whose key is known. -/
def count (tally : Tally R) (k : Key) (token : Value R) : Tally R :=
  if tally.seen k then
    { tally with total := tally.total.succ }
  else
    { distinct := tally.distinct.succ
      total := tally.total.succ
      identifiers := tally.identifiers ++ [(k, token)] }

/-- Count an occurrence of a token. A value that cannot be a token is refused. -/
def record (tally : Tally R) (token : Value R) : Except Fault (Tally R) := do
  let k ← key token
  return tally.count k token

/-- A tally as it is reported. -/
def toValue (tally : Tally R) : Value R :=
  .dict [("distinct", tally.distinct), ("total", tally.total), ("identifiers", .list tally.names)]

end Tally

end SourceMetrics
