import Permit.Fault.Kind
import Permit.Number.Text

namespace Permit.Log

open Number (Binary64)

inductive TimestampFault where
  | notANumber
  | outOfRange
  /-- A year so far away that there is no date for it. -/
  | noDate
  | yearOutOfRange (year : Int)
deriving Repr, DecidableEq

namespace TimestampFault

def kind : TimestampFault → FaultKind
  | .outOfRange => .overflow
  | .noDate => .system
  | _ => .value

def message : TimestampFault → String
  | .notANumber => "Invalid value NaN (not a number)"
  | .outOfRange => "timestamp out of range for platform time_t"
  | .noDate => "[Errno 75] Value too large for defined data type"
  | .yearOutOfRange year => s!"year {Number.intText year} is out of range"

end TimestampFault

structure Date where
  year : Int
  month : Nat
  day : Nat
deriving Repr, DecidableEq, Inhabited

/-- The date of a day, counted from the start of 1970. Years are taken to begin in
March, so that the day added in a leap year is the last one; four hundred years have
146097 days. -/
def Date.ofDay (day : Int) : Date :=
  let shifted := day + 719468
  let era := shifted.fdiv 146097
  let dayOfEra := (shifted.fmod 146097).toNat
  let yearOfEra :=
    (dayOfEra - dayOfEra / 1460 + dayOfEra / 36524 - dayOfEra / 146096) / 365
  let dayOfYear := dayOfEra - (365 * yearOfEra + yearOfEra / 4 - yearOfEra / 100)
  let monthFromMarch := (5 * dayOfYear + 2) / 153
  let month := if monthFromMarch < 10 then monthFromMarch + 3 else monthFromMarch - 9
  { year := yearOfEra + era * 400 + if month ≤ 2 then 1 else 0
    month
    day := dayOfYear - (153 * monthFromMarch + 2) / 5 + 1 }

structure Moment where
  seconds : Int
  microseconds : Nat
deriving Repr, DecidableEq, Inhabited

namespace Moment

/-- The whole seconds that a clock counts: those of a signed word of 64 bits. -/
def isSeconds (n : Int) : Bool := -9223372036854775808 ≤ n && n < 9223372036854775808

/-- The moment of a number of seconds. The fraction is scaled as a floating-point
number first and then rounded to the microsecond, a tie to the even one. -/
def ofSeconds : Binary64 → Except TimestampFault Moment
  | .nan _ => .error .notANumber
  | .infinite _ => .error .outOfRange
  | .finite negative mantissa exponent =>
    let (n, d) := Binary64.scaled mantissa 1 exponent
    let micros := match Binary64.ofRatio false (n % d * 1000000) d with
      | .finite _ m e =>
        let (n, d) := Binary64.scaled m 1 e
        Number.roundDiv n d
      | _ => 0
    let whole : Int := if negative then -(n / d : Nat) else (n / d : Nat)
    if !isSeconds whole then .error .outOfRange
    else if negative then
      if micros = 0 then .ok ⟨whole, 0⟩ else .ok ⟨whole - 1, 1000000 - micros⟩
    else if 1000000 ≤ micros then .ok ⟨whole + 1, micros - 1000000⟩
    else .ok ⟨whole, micros⟩

/-- The years that a calendar counts: from 1900 on, those of a signed word of 32 bits. -/
def hasDate (year : Int) : Bool := -2147483648 ≤ year - 1900 && year - 1900 < 2147483648

def isYear (year : Int) : Bool := 1 ≤ year && year ≤ 9999

def twoDigits (n : Nat) : String := Text.padLeft '0' 2 (Number.natText n)

/-- A moment as date and time of day. -/
def text (m : Moment) : Except TimestampFault String :=
  let date := Date.ofDay (m.seconds.fdiv 86400)
  let second := (m.seconds.fmod 86400).toNat
  if !hasDate date.year then .error .noDate
  else if !isYear date.year then .error (.yearOutOfRange date.year)
  else
    .ok <| Text.padLeft '0' 4 (Number.natText date.year.toNat) ++ "-" ++ twoDigits date.month ++
      "-" ++ twoDigits date.day ++ "T" ++ twoDigits (second / 3600) ++ ":" ++
      twoDigits (second / 60 % 60) ++ ":" ++ twoDigits (second % 60) ++
      (if m.microseconds = 0 then ""
        else "." ++ Text.padLeft '0' 6 (Number.natText m.microseconds)) ++
      "+00:00"

end Moment

example : Date.ofDay 0 = ⟨1970, 1, 1⟩ := by decide
example : Date.ofDay 11016 = ⟨2000, 2, 29⟩ := by decide
example : Date.ofDay (-719162) = ⟨1, 1, 1⟩ := by decide

end Permit.Log
