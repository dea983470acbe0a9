import Bilingual.Yaml.Error

set_option autoImplicit false

/-! # Timestamps

A timestamp is a date, or a date and a time of day that may have a fraction of a second and a time zone.
How it is written decides whether a scalar is one; whether the calendar has that day and the clock that time
shows only when it is read. -/

namespace Bilingual.Yaml.Timestamp

/-- A step that reads a timestamp from left to right. -/
abbrev Reading := StateT Text Option

/-- Read between `least` and `most` digits. -/
def digits (least most : Nat) : Reading Nat := do
  let t ← get
  let run := (t.take most).takeWhile CodePoint.isAsciiDigit
  if run.length < least then failure
  set (t.drop run.length)
  Text.decimalNumber? run

/-- Read one code point. -/
def point (p : CodePoint) : Reading Unit := do
  let t ← get
  if t.head? ≠ some p then failure
  set t.tail

/-- Whether a code point follows; it is read. -/
def pointIf (p : CodePoint) : Reading Bool := do
  let t ← get
  if t.head? = some p then
    set t.tail
    return true
  else return false

/-- Read blanks, and tell how many. -/
def blanks : Reading Nat := do
  let t ← get
  let run := t.takeWhile fun (c : CodePoint) => c == ' ' || c == '\t'
  set (t.drop run.length)
  return run.length

/-- Whether a scalar ends here: one line break at its end does not count. -/
def atEnd : Reading Bool := return (← get).isEmpty || (← get) == Text.ofString "\n"

/-- Read what stands between the day and the time. -/
def separator : Reading Unit := do
  if !((← pointIf 't') || (← pointIf 'T')) then
    if (← blanks) = 0 then failure

/-- The microseconds of a fraction of a second; digits behind the sixth do not count. -/
def fraction : Reading Nat := do
  if !(← pointIf '.') then return 0
  let t ← get
  let run := t.takeWhile CodePoint.isAsciiDigit
  set (t.drop run.length)
  let counted := run.take 6
  return (Text.decimalNumber? counted).getD 0 * Nat.pow 10 (6 - counted.length)

/-- The seconds that a time zone is ahead of universal time. -/
def zone : Reading (Option Int) := do
  if ← atEnd then return none
  let _ ← blanks
  if ← pointIf 'Z' then return some 0
  let negative ← pointIf '-'
  if !negative then point '+'
  let hours ← digits 1 2
  let minutes ← if ← pointIf ':' then digits 2 2 else pure 0
  let seconds : Int := hours * 3600 + minutes * 60
  return some (if negative then -seconds else seconds)

/-- A timestamp up to the end of a scalar. -/
def moment : Reading Moment := do
  let year ← digits 4 4
  point '-'
  let month ← digits 1 2
  point '-'
  let day ← digits 1 2
  if ← atEnd then return ⟨⟨year, month, day⟩, none⟩
  separator
  let hour ← digits 1 2
  point ':'
  let minute ← digits 2 2
  point ':'
  let second ← digits 2 2
  let microsecond ← fraction
  let offset ← zone
  if !(← atEnd) then failure
  return ⟨⟨year, month, day⟩, some ⟨hour, minute, second, microsecond, offset⟩⟩

/-- The moment that a text writes, whether the calendar has it or not. -/
def written? (t : Text) : Option Moment := (moment.run t).map (·.1)

/-- Whether a plain scalar, without a line break at its end, is a timestamp. A date alone needs two digits
for the month and for the day. -/
def isPlain (t : Text) : Bool :=
  t.getLast? ≠ some ('\n' : CodePoint) && (written? t).any fun m => m.time.isSome || t.length == 10

/-- Check a day against the calendar. -/
def checkDay (d : CalendarDay) : Except ScalarFault Unit :=
  if d.year = 0 then .error .year
  else if d.month < 1 ∨ 12 < d.month then .error .month
  else if d.day < 1 ∨ CalendarDay.daysIn d.year d.month < d.day then .error .day
  else .ok ()

/-- Check a time against the clock. -/
def checkTime (t : TimeOfDay) : Except ScalarFault Unit :=
  if 23 < t.hour then .error .hour
  else if 59 < t.minute then .error .minute
  else if 59 < t.second then .error .second
  else .ok ()

/-- The moment that a scalar writes. Its time zone is less than a day ahead or behind. -/
def read (t : Text) : Except ScalarFault Moment := do
  match written? t with
  | none => throw .moment
  | some m =>
    if let some seconds := m.time.bind TimeOfDay.offset then
      if 86400 ≤ seconds.natAbs then throw (.offset seconds)
    checkDay m.day
    if let some time := m.time then checkTime time
    return m

end Bilingual.Yaml.Timestamp
