import Bilingual.Text.CodePoint

set_option autoImplicit false

/-! # Days and moments

A moment is a day of the Gregorian calendar, or a day and a time of day with the distance from universal
time if it is known. Two moments with that distance are the same when they lie at the same instant. -/

namespace Bilingual

/-- A day of the calendar. -/
structure CalendarDay where
  year : Nat
  month : Nat
  day : Nat
deriving DecidableEq, Repr

namespace CalendarDay

/-- The day that comes a number of days after 1970-01-01. Years are counted from the first of March, so
that a leap day is the last day of its year; 400 such years have 146097 days. -/
def ofNumber (number : Nat) : CalendarDay :=
  let days := number + 719468
  let era := days / 146097
  let inEra := days % 146097
  let year := (inEra - inEra / 1460 + inEra / 36524 - inEra / 146096) / 365
  let inYear := inEra - (365 * year + year / 4 - year / 100)
  let month := (5 * inYear + 2) / 153
  { year := year + era * 400 + (if month < 10 then 0 else 1)
    month := if month < 10 then month + 3 else month - 9
    day := inYear - (153 * month + 2) / 5 + 1 }

/-- Whether a year has a leap day. -/
def isLeap (year : Nat) : Bool := year % 4 = 0 && (year % 100 ≠ 0 || year % 400 = 0)

/-- How many days a month has. -/
def daysIn (year month : Nat) : Nat :=
  if month = 2 then if isLeap year then 29 else 28
  else if month = 4 ∨ month = 6 ∨ month = 9 ∨ month = 11 then 30
  else 31

/-- How many days come before a day since the year 1 began. -/
def daysBefore (d : CalendarDay) : Nat :=
  let years := d.year - 1
  let months := (List.range d.month).drop 1
  365 * years + years / 4 - years / 100 + years / 400 +
    months.foldl (fun days month => days + daysIn d.year month) 0 + (d.day - 1)

end CalendarDay

/-- A time of day. `offset` tells how many seconds the clock is ahead of universal time. -/
structure TimeOfDay where
  hour : Nat
  minute : Nat
  second : Nat
  microsecond : Nat
  offset : Option Int
deriving DecidableEq, Repr

/-- A day, or a day and a time of day. -/
structure Moment where
  day : CalendarDay
  time : Option TimeOfDay
deriving DecidableEq, Repr

namespace Moment

/-- The microseconds since the year 1 began in universal time, on a clock that is `offset` seconds
ahead. -/
def instant (day : CalendarDay) (time : TimeOfDay) (offset : Int) : Int :=
  let seconds : Int := day.daysBefore * 86400 + time.hour * 3600 + time.minute * 60 + time.second
  (seconds - offset) * 1000000 + time.microsecond

/-- Whether two moments are the same. -/
def same (m n : Moment) : Bool :=
  match m.time, n.time with
  | some s, some t => match s.offset, t.offset with
    | some a, some b => instant m.day s a == instant n.day t b
    | _, _ => m == n
  | _, _ => m == n

/-- A call with its arguments. -/
def call (name : Text) (arguments : List Text) : Text :=
  name ++ "(" ++ Text.joinWith ", " arguments ++ ")"

/-- How a distance of a number of seconds shows: in days and in seconds of a day. -/
def shownDistance (seconds : Int) : Text :=
  let part := fun (name : Text) (n : Int) => if n = 0 then [] else [name ++ "=" ++ Text.ofInt n]
  let parts := part "days" (seconds / 86400) ++ part "seconds" (seconds % 86400)
  call "datetime.timedelta" (if parts.isEmpty then ["0"] else parts)

/-- How a moment shows. Seconds and their fractions show when they are not zero. -/
def shown (m : Moment) : Text :=
  let day := [m.day.year, m.day.month, m.day.day]
  match m.time with
  | none => call "datetime.date" (day.map Text.ofNat)
  | some t =>
    let seconds :=
      if t.microsecond ≠ 0 then [t.second, t.microsecond] else if t.second ≠ 0 then [t.second] else []
    let zone : List Text := match t.offset with
      | none => []
      | some 0 => ["tzinfo=datetime.timezone.utc"]
      | some offset => ["tzinfo=" ++ call "datetime.timezone" [shownDistance offset]]
    call "datetime.datetime" ((day ++ [t.hour, t.minute] ++ seconds).map Text.ofNat ++ zone)

end Moment

/-! ## Times as they are written

Documents tell when they were made by a date and a time of day in universal time, with whole seconds. -/

/-- A number of at least `width` digits. -/
def Text.ofNatPadded (width n : Nat) : Text :=
  List.replicate (width - (Text.ofNat n).length) (CodePoint.ofChar '0') ++ Text.ofNat n

/-- The written form of the time that is a number of seconds after the start of 1970. -/
def Text.ofTime (seconds : Nat) : Text :=
  let date := CalendarDay.ofNumber (seconds / 86400)
  ofNatPadded 4 date.year ++ "-" ++ ofNatPadded 2 date.month ++ "-" ++ ofNatPadded 2 date.day ++ "T" ++
    ofNatPadded 2 (seconds / 3600 % 24) ++ ":" ++ ofNatPadded 2 (seconds / 60 % 60) ++ ":" ++
    ofNatPadded 2 (seconds % 60) ++ "+00:00"

end Bilingual
