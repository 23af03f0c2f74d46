/-!
# Dates and times of day

A moment is a date, a time of day, or both. With both, it may tell how far the clock is ahead of
universal time. Two moments with such an offset are the same if they are the same instant; any
other two are the same if they read the same.
-/

namespace SourceMetrics

namespace Calendar

/-- Whether a year has a day more. -/
def isLeap (year : Nat) : Bool :=
  year % 4 = 0 && (year % 100 ≠ 0 || year % 400 = 0)

/-- The number of days of a month. -/
def daysIn (year month : Nat) : Nat :=
  if month = 2 then if isLeap year then 29 else 28
  else if [4, 6, 9, 11].contains month then 30
  else 31

end Calendar

/-- A date of the calendar. -/
structure Date where
  year : Nat
  month : Nat
  day : Nat
  inCalendar : (1 ≤ year ∧ year ≤ 9999) ∧ (1 ≤ month ∧ month ≤ 12) ∧
    1 ≤ day ∧ day ≤ Calendar.daysIn year month
deriving DecidableEq

/-- A time of day. -/
structure Clock where
  hour : Nat
  minute : Nat
  second : Nat
  microsecond : Nat
  inDay : hour < 24 ∧ minute < 60 ∧ second < 60 ∧ microsecond < 1000000
deriving DecidableEq

/-- A date, a time of day, or both. -/
inductive Moment where
  | date (d : Date)
  | time (t : Clock)
  /-- A date and a time of day, with the minutes by which the clock is ahead of universal time if
  that is known. -/
  | dateTime (d : Date) (t : Clock) (offset : Option Int)
deriving DecidableEq

namespace Date

/-- The date of a year, a month and a day, if there is one. -/
def ofParts? (year month day : Nat) : Option Date :=
  if h : _ then some ⟨year, month, day, h⟩ else none

/-- The number of days up to a date, from the first day of the year one on. -/
def ordinal (d : Date) : Nat :=
  let years := d.year - 1
  let months := List.range' 1 (d.month - 1)
  365 * years + years / 4 - years / 100 + years / 400
    + months.foldl (fun days month => days + Calendar.daysIn d.year month) 0 + d.day

end Date

/-- The time of day of an hour, a minute, a second and a fraction of it, if there is one. -/
def Clock.ofParts? (hour minute second microsecond : Nat) : Option Clock :=
  if h : _ then some ⟨hour, minute, second, microsecond, h⟩ else none

namespace Moment

/-- What a moment is known by. -/
inductive Mark where
  | reading (m : Moment)
  /-- An instant, by the minutes of universal time up to it, the seconds and the rest. -/
  | instant (minutes : Int) (second microsecond : Nat)
deriving DecidableEq

/-- What a moment is known by: the instant if it has an offset, and otherwise what it reads. -/
def mark : Moment → Mark
  | .dateTime d t (some offset) =>
    .instant ((1440 * d.ordinal + 60 * t.hour + t.minute : Nat) - offset) t.second t.microsecond
  | m => .reading m

/-- The name of a moment's type. -/
def typeName : Moment → String
  | .date _ => "datetime.date"
  | .time _ => "datetime.time"
  | .dateTime _ _ _ => "datetime.datetime"

/-- A number with leading zeros. -/
private def padded (width n : Nat) : String :=
  let digits := Nat.toDigits 10 n
  String.ofList (List.replicate (width - digits.length) '0' ++ digits)

private def dateText (d : Date) : String :=
  padded 4 d.year ++ "-" ++ padded 2 d.month ++ "-" ++ padded 2 d.day

private def clockText (t : Clock) : String :=
  padded 2 t.hour ++ ":" ++ padded 2 t.minute ++ ":" ++ padded 2 t.second
    ++ if t.microsecond = 0 then "" else "." ++ padded 6 t.microsecond

private def offsetText (offset : Int) : String :=
  (if offset < 0 then "-" else "+") ++ padded 2 (offset.natAbs / 60) ++ ":"
    ++ padded 2 (offset.natAbs % 60)

/-- A moment as it stands in a message. -/
def message : Moment → String
  | .date d => dateText d
  | .time t => clockText t
  | .dateTime d t offset =>
    dateText d ++ " " ++ clockText t ++ (offset.map offsetText).getD ""

private def dateParts (d : Date) : List Nat :=
  [d.year, d.month, d.day]

/-- The parts of a time of day, without seconds and fractions at the end that are zero. -/
private def clockParts (t : Clock) : List Nat :=
  if t.microsecond ≠ 0 then [t.hour, t.minute, t.second, t.microsecond]
  else if t.second ≠ 0 then [t.hour, t.minute, t.second]
  else [t.hour, t.minute]

private def quotedZone (offset : Int) : String :=
  if offset = 0 then "datetime.timezone.utc"
  else
    let span :=
      if 0 < offset then s!"seconds={60 * offset}" else s!"days=-1, seconds={86400 + 60 * offset}"
    "datetime.timezone(datetime.timedelta(" ++ span ++ "))"

/-- A moment as it stands inside another value. -/
def quoted (m : Moment) : String :=
  let parts :=
    match m with
    | .date d => (dateParts d).map toString
    | .time t => (clockParts t).map toString
    | .dateTime d t offset =>
      (dateParts d ++ clockParts t).map toString
        ++ (offset.map fun minutes => "tzinfo=" ++ quotedZone minutes).toList
  m.typeName ++ "(" ++ ", ".intercalate parts ++ ")"

end Moment

end SourceMetrics
