import SourceMetrics.Fault

/-!
# Numbers among the values

A value counts as a number if it is an integer, a fraction number or a truth value, which counts as
zero or one. Integers are added, subtracted and compared exactly. An operation of an integer with a
fraction number first brings the integer into the model, and fails if it is out of range there.
-/

namespace SourceMetrics

/-- A number: an exact integer or a fraction number. -/
inductive Number (R : Type) where
  | int (i : Int)
  | real (x : R)

namespace Number

variable {R : Type} [Arithmetic R]

/-- A number as a value. -/
def toValue : Number R → Value R
  | .int i => .int i
  | .real x => .real x

/-- A number brought into the model. -/
def toReal : Number R → Except Fault R
  | .int i =>
    match Arithmetic.ofInt? i with
    | some x => .ok x
    | none => .error .integerRange
  | .real x => .ok x

/-- Combine two integers exactly, or two numbers of which one is a fraction number in the model. -/
def combine (exact : Int → Int → Int) (inexact : R → R → R) :
    Number R → Number R → Except Fault (Number R)
  | .int i, .int j => .ok (.int (exact i j))
  | a, b => do
    let x ← a.toReal
    let y ← b.toReal
    return .real (inexact x y)

/-- The sum of two numbers. -/
def add : Number R → Number R → Except Fault (Number R) :=
  combine (· + ·) Arithmetic.add

/-- The difference of two numbers. -/
def sub : Number R → Number R → Except Fault (Number R) :=
  combine (· - ·) Arithmetic.sub

/-- The quotient of two numbers, the second of them not zero. -/
def div : Number R → Number R → Except Fault R
  | .int i, .int j =>
    let q : R := Arithmetic.quotient i j
    if Arithmetic.isInfinite q then .error .quotientRange else .ok q
  | a, b => do
    let x ← a.toReal
    let y ← b.toReal
    return Arithmetic.div x y

/-- Whether a number is zero. -/
def isZero : Number R → Bool
  | .int i => i == 0
  | .real x => Arithmetic.isZero x

end Number

namespace Value

variable {R : Type} [Arithmetic R]

/-- The number that a value counts as. -/
def number? : Value R → Option (Number R)
  | .bool b => some (.int (if b then 1 else 0))
  | .int i => some (.int i)
  | .real x => some (.real x)
  | _ => none

/-- Whether a value is a number and equal to zero. -/
def isZero (value : Value R) : Bool :=
  value.number?.any Number.isZero

/-- Apply an arithmetic operation to two values, which both have to be numbers. -/
def arithmetic {α : Type} (operation : String) (run : Number R → Number R → Except Fault α)
    (left right : Value R) : Except Fault α :=
  match left.number?, right.number? with
  | some a, some b => run a b
  | _, _ => .error (.operands operation left.typeName right.typeName)

/-- Add an amount to a counter. -/
def increase (counter amount : Value R) : Except Fault (Value R) :=
  (arithmetic "+=" Number.add counter amount).map Number.toValue

/-- The sum of two values: of numbers, or one row of items of a type after another. -/
def plus (left right : Value R) : Except Fault (Value R) :=
  match left, right with
  | .text s, .text t => .ok (.text (s ++ t))
  | .bytes bs, .bytes cs => .ok (.bytes (bs ++ cs))
  | .list items, .list others => .ok (.list (items ++ others))
  | .tuple items, .tuple others => .ok (.tuple (items ++ others))
  | _, _ => (arithmetic "+" Number.add left right).map Number.toValue

/-- The difference of two values. -/
def minus (left right : Value R) : Except Fault (Value R) :=
  (arithmetic "-" Number.sub left right).map Number.toValue

/-- The quotient of two values, the second of them not zero. -/
def dividedBy (left right : Value R) : Except Fault R :=
  arithmetic "/" Number.div left right

/-- A value as a number of the model. -/
def toReal (value : Value R) : Except Fault R :=
  match value.number? with
  | some n => n.toReal
  | none => .error (.notNumber value.typeName)

/-- Whether a value may stand for a fixed amount: a number other than `nan`. A truth value may
not. -/
def isAmount : Value R → Bool
  | .int _ => true
  | .real x => !Arithmetic.isNaN x
  | _ => false

/-- A count after one more occurrence. Only numbers count. -/
def succ : Value R → Value R
  | .int i => .int (i + 1)
  | .bool b => .int (if b then 2 else 1)
  | .real x => .real (Arithmetic.add x Arithmetic.one)
  | value => value

end Value

end SourceMetrics
