import Bilingual.Calendar
import Bilingual.Failure

set_option autoImplicit false

/-! # What can go wrong in a YAML text

A text that is no YAML document is malformed, whatever the reason is. A document may still hold an escape
that names no code point, or a scalar whose text does not suit its tag; those are told apart. -/

namespace Bilingual.Yaml

/-- Why a scalar has no value of the kind that its tag asks for. -/
inductive ScalarFault where
  /-- No integer can be read to the given base. -/
  | integer (base : Nat) (text : Text)
  /-- No number can be read. -/
  | number (text : Text)
  /-- Nothing is left of a number without its sign and underscores. -/
  | noDigits
  /-- A number has more places than a number of double precision can weigh. -/
  | tooManyPlaces
  /-- A text is no truth value. -/
  | truth
  /-- A text is no moment. -/
  | moment
  /-- A map stands for a moment. -/
  | momentOfMap
  /-- A clock is a day or more ahead of universal time, or behind it. -/
  | offset (seconds : Int)
  /-- A day is not in the calendar. -/
  | year
  | month
  | day
  /-- A time of day is not on the clock. -/
  | hour
  | minute
  | second
  /-- A map that stands for a scalar stands for itself. -/
  | endless
deriving DecidableEq, Repr

namespace ScalarFault

/-- The part of a quoted text that a message has room for. -/
def excerpt (text : Text) : Text := text.quoted.take 200

/-- The wording of a fault that has one. -/
def message? : ScalarFault → Option Text
  | integer base text =>
    some ("invalid literal for int() with base " ++ Text.ofNat base ++ ": " ++ excerpt text)
  | number text => some ("could not convert string to float: " ++ text.quoted)
  | offset seconds => some ("offset must be a timedelta strictly between -timedelta(hours=24) and " ++
      "timedelta(hours=24), not " ++ Moment.shownDistance seconds ++ ".")
  | year => some "year 0 is out of range"
  | month => some "month must be in 1..12"
  | day => some "day is out of range for month"
  | hour => some "hour must be in 0..23"
  | minute => some "minute must be in 0..59"
  | second => some "second must be in 0..59"
  | noDigits | tooManyPlaces | truth | moment | momentOfMap | endless => none

end ScalarFault

/-- Why a YAML text cannot be read. -/
inductive Error where
  | malformed
  | escape (failure : Failure)
  | scalar (fault : ScalarFault)
deriving DecidableEq, Repr

end Bilingual.Yaml
