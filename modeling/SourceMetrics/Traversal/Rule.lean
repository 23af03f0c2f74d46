import SourceMetrics.Halstead.Tally
import SourceMetrics.Traversal.Trace

/-!
# Syntax rules

A syntax rule says what a node contributes: logical lines (`lloc`), branches (`cyclomatic`),
`operators`, `operands` and `dependencies`. A contribution is written down in the rule or computed
by a function of the node. A rule may be a record or a mapping, and anything else in its place
contributes nothing.
-/

namespace SourceMetrics

/-- What the functions among the values do, by their handles. A function takes a node; a function
that reports dependencies also takes a flag, which says whether it is the first one to do so. -/
abbrev Interpretation (R : Type) := Nat → Value R → Option Bool → Except (Failure R) (Value R)

/-- One contribution of a node. -/
inductive Contribution (R : Type) where
  | logical (amount : Value R)
  | cyclomatic (amount : Value R)
  | token (tokenClass : TokenClass) (identifier : Value R)
  /-- The dependency records of a node whose rule reports dependencies, possibly none. -/
  | dependencies (records : List (Value R))

namespace Rule

variable {R : Type} [Arithmetic R] (call : Interpretation R)

/-- A value that may be given by a function of the node. -/
def resolve (node value : Value R) : Except (Failure R) (Value R) :=
  match value with
  | .function handle => call handle node none
  | _ => .ok value

/-- The amount that a rule gives under a name: a number, or what a function returns unless that is
absent. -/
def amount (node rule : Value R) (name : String) : Except (Failure R) (Option (Value R)) :=
  match rule.field name with
  | .function handle => do
    let value ← call handle node none
    return if value.isNull then none else some value
  | value => .ok (if value.isAmount then some value else none)

/-- Whether a token passes its filter. A filter that is no function passes every token, and a
function passes a token only by returning the truth value true. -/
def passes (node token : Value R) : Except (Failure R) Bool :=
  match token.field "filter" with
  | .function handle => do
    match ← call handle node none with
    | .bool true => return true
    | _ => return false
  | _ => .ok true

/-- The identifier of a token for a node, if the token passes its filter. The identifier is
computed before the filter is asked. -/
def token (node token : Value R) : Except (Failure R) (Option (Value R)) := do
  let identifier ← resolve call node (token.field "identifier")
  let passed ← passes call node token
  return if passed then some identifier else none

/-- The tokens of a class that a rule names. -/
def tokens (rule : Value R) (tokenClass : TokenClass) : List (Value R) :=
  (rule.field tokenClass.name).items?.getD []

/-- The records that a result of a dependency function stands for: a mapping or a dependency record
is one, a list or a tuple holds them, anything else is none. -/
def records : Value R → List (Value R)
  | .dict entries => [.dict entries]
  | .record .dependency fields => [.record .dependency fields]
  | .list items => items
  | .tuple items => items
  | _ => []

/-- The dependencies that a rule reports for a node, if it reports any at all. -/
def dependencies (clear : Bool) (node rule : Value R) :
    Except (Failure R) (Option (List (Value R))) :=
  match rule.field "dependencies" with
  | .function handle => do
    let result ← call handle node (some clear)
    return some (records result)
  | _ => .ok none

/-- The contributions of the tokens of a class. -/
def tokenTrace (node rule : Value R) (tokenClass : TokenClass) : Trace R (Contribution R) :=
  Trace.concat ((tokens rule tokenClass).map fun t =>
    Trace.ofExcept ((token call node t).map (·.map (Contribution.token tokenClass))))

/-- The contributions of a node by its rule, in the order in which they are made: logical lines,
branches, operators, operands, dependencies. -/
def contributions (clear : Bool) (node rule : Value R) : Trace R (Contribution R) :=
  Trace.concat
    [Trace.ofExcept ((amount call node rule "lloc").map (·.map Contribution.logical)),
     Trace.ofExcept ((amount call node rule "cyclomatic").map (·.map Contribution.cyclomatic)),
     tokenTrace call node rule .operators,
     tokenTrace call node rule .operands,
     Trace.ofExcept ((dependencies call clear node rule).map (·.map Contribution.dependencies))]

end Rule

end SourceMetrics
