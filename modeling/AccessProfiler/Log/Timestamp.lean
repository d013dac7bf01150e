import AccessProfiler.Number.Display
import AccessProfiler.Number.Numeral
import AccessProfiler.Text.Searching

/-!
# Timestamps

The date and the time of day in front of a log line, `MM-DD HH:MM:SS.mmm`.  There is no year, and
the month and the day are not checked.
-/

namespace AccessProfiler

open Number

/-- A date and a time of day. -/
structure Timestamp where
  month : Nat
  day : Nat
  hour : Nat
  minute : Nat
  seconds : Binary64
deriving DecidableEq

namespace Timestamp

/-- The largest number of a field. -/
def fieldLimit : Nat := 255

/-- The seconds are at least zero and less than sixty-one, so that a leap second fits. -/
def validSeconds (seconds : Binary64) : Bool :=
  Binary64.zero.le seconds && seconds.lt (.ofInt 61)

/-- Read a date and a time. -/
def parse? (date time : List Char) : Option Timestamp := do
  let (month, day) ← Text.cutFirst? ['-'] date
  let (hour, rest) ← Text.cutFirst? [':'] time
  let (minute, seconds) ← Text.cutFirst? [':'] rest
  let hour ← natural? fieldLimit hour
  let minute ← natural? fieldLimit minute
  let seconds ← double? seconds
  let month ← natural? fieldLimit month
  let day ← natural? fieldLimit day
  if hour < 24 ∧ minute < 60 ∧ validSeconds seconds then
    some { month, day, hour, minute, seconds }
  else none

/-- The seconds since midnight. -/
def ofDay (stamp : Timestamp) : Binary64 :=
  (Binary64.ofInt (stamp.hour * 3600 + stamp.minute * 60)).add stamp.seconds

/-- Fill up with zeros in front. -/
def padded (width : Nat) (text : String) : String :=
  String.ofList (List.replicate (width - text.length) '0') ++ text

/-- The seconds with three places and at least two digits in front of the point. -/
def secondsText (seconds : Binary64) : String :=
  match seconds.magnitude with
  | .finite significand exponent =>
    let text := fixedText 3 significand exponent
    if seconds.isNegative then "-" ++ padded 5 text else padded 6 text
  | .infinite => "inf"
  | .notANumber => "NaN"

/-- Written `MM-DD HH:MM:SS.mmm`. -/
def render (stamp : Timestamp) : String :=
  let two (number : Nat) := padded 2 (toString number)
  two stamp.month ++ "-" ++ two stamp.day ++ " " ++ two stamp.hour ++ ":" ++ two stamp.minute ++
    ":" ++ secondsText stamp.seconds

end Timestamp
end AccessProfiler
