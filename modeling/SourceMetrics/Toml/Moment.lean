import SourceMetrics.Toml.Basic
import SourceMetrics.Value.Moment

/-!
# Configuration text in TOML: dates and times

All parts of a date and of a time have a fixed number of digits. A date may be followed by a time,
and the time by an offset from universal time. Of a fraction of a second six digits count.
-/

namespace SourceMetrics.Toml

/-- A number of so many decimal digits within bounds. -/
def readFixed? (width least greatest : Nat) (cs : List Char) : Option (Nat × List Char) := do
  let n ← Text.readDigits 10 (digitBelow? 10) (cs.take width)
  if width ≤ cs.length && least ≤ n && n ≤ greatest then some (n, cs.drop width) else none

/-- Skip a character that has to be there. -/
def skip? (c : Char) : List Char → Option (List Char)
  | d :: rest => if d = c then some rest else none
  | [] => none

/-- The year, the month and the day of a date. There need not be such a day. -/
def readDate? (cs : List Char) : Option ((Nat × Nat × Nat) × List Char) := do
  let (year, cs) ← readFixed? 4 0 9999 cs
  let (month, cs) ← readFixed? 2 1 12 (← skip? '-' cs)
  let (day, cs) ← readFixed? 2 1 31 (← skip? '-' cs)
  return ((year, month, day), cs)

/-- The microseconds of a fraction of a second, if there is one. Six digits count. -/
def readMicroseconds (cs : List Char) : Nat × List Char :=
  match cs with
  | '.' :: rest =>
    let digits := rest.takeWhile Char.isDigit
    if digits.isEmpty then (0, cs)
    else
      let counted := (digits ++ List.replicate 6 '0').take 6
      ((Text.readDigits 10 (digitBelow? 10) counted).getD 0, rest.dropWhile Char.isDigit)
  | _ => (0, cs)

/-- A time of day. -/
def readClock? (cs : List Char) : Option (Clock × List Char) := do
  let (hour, cs) ← readFixed? 2 0 23 cs
  let (minute, cs) ← readFixed? 2 0 59 (← skip? ':' cs)
  let (second, cs) ← readFixed? 2 0 59 (← skip? ':' cs)
  let (microsecond, cs) := readMicroseconds cs
  let clock ← Clock.ofParts? hour minute second microsecond
  return (clock, cs)

/-- The minutes of an offset from universal time after its sign. -/
def readSpan? (cs : List Char) : Option (Nat × List Char) := do
  let (hours, cs) ← readFixed? 2 0 23 cs
  let (minutes, cs) ← readFixed? 2 0 59 (← skip? ':' cs)
  return (60 * hours + minutes, cs)

/-- The offset from universal time, if there is one. -/
def readOffset (cs : List Char) : Option Int × List Char :=
  let signed (sign : Int) (rest : List Char) :=
    match readSpan? rest with
    | some (minutes, last) => (some (sign * minutes), last)
    | none => (none, cs)
  match cs with
  | 'Z' :: rest => (some 0, rest)
  | 'z' :: rest => (some 0, rest)
  | '+' :: rest => signed 1 rest
  | '-' :: rest => signed (-1) rest
  | _ => (none, cs)

/-- The time of day after a date, if there is one. -/
def readClockAfter? (cs : List Char) : Option (Clock × List Char) :=
  match cs with
  | c :: rest => if c = 'T' || c = 't' || c = ' ' then readClock? rest else none
  | [] => none

/-- A moment, if characters start with one. A date that is not in the calendar is none. -/
def readMoment? (cs : List Char) : Option (Option Moment × List Char) :=
  match readDate? cs with
  | some ((year, month, day), rest) =>
    let date := Date.ofParts? year month day
    match readClockAfter? rest with
    | some (clock, more) =>
      let (offset, last) := readOffset more
      some (date.map fun d => .dateTime d clock offset, last)
    | none => some (date.map Moment.date, rest)
  | none => (readClock? cs).map fun read => (some (.time read.1), read.2)

end SourceMetrics.Toml
