/- The proleptic Gregorian calendar, and clocks that go by it. -/
import Stencil.Platform

namespace Stencil

def isLeapYear (y : Int) : Bool := y % 4 == 0 && (y % 100 != 0 || y % 400 == 0)

/-- Days from the first of January of year 1 to that of year `y`. -/
def daysBeforeYear (y : Int) : Int :=
  365 * (y - 1) + (y - 1) / 4 - (y - 1) / 100 + (y - 1) / 400

/-- The year of a day counted from the first of January of year 1. The mean length of a year gives
it but for one. -/
def yearOfDay (day : Int) : Int :=
  let guess := 1 + day * 400 / 146097
  if day < daysBeforeYear guess then guess - 1
  else if daysBeforeYear (guess + 1) ≤ day then guess + 1
  else guess

def monthLengths (y : Int) : List Nat :=
  [31, if isLeapYear y then 29 else 28, 31, 30, 31, 30, 31, 31, 30, 31, 30, 31]

/-- The whole months before a day of the year and the days left, both counted from zero. -/
def splitMonths : List Nat → Nat → Nat × Nat
  | [], day => (0, day)
  | length :: rest, day =>
    if day < length then (0, day)
    else
      let (months, left) := splitMonths rest (day - length)
      (months + 1, left)

/-- Days from the first of January of year 1 to that of 1970. -/
def epochDay : Int := 719162

namespace Clock

def firstYear : Int := -262143

def lastYear : Int := 262142

def weekdays : List String :=
  ["Monday", "Tuesday", "Wednesday", "Thursday", "Friday", "Saturday", "Sunday"]

def months : List String :=
  ["January", "February", "March", "April", "May", "June", "July", "August", "September",
    "October", "November", "December"]

/-- The moment of a timestamp at which a clock shows a second that is counted from 1970 too. -/
def momentAt (timestamp shown : Int) : Moment :=
  let day := shown / 86400 + epochDay
  let second := (shown % 86400).toNat
  let year := yearOfDay day
  let (month, left) := splitMonths (monthLengths year) (day - daysBeforeYear year).toNat
  let weekday := (weekdays.getD (day % 7).toNat "").toList
  let monthName := (months.getD month "").toList
  { timestamp, year, weekday, monthName
    month := month + 1
    day := left + 1
    hour := second / 3600
    minute := second / 60 % 60
    second := second % 60
    shortWeekday := weekday.take 3
    shortMonth := monthName.take 3 }

/-- The clock of a zone that is so many seconds ahead of universal time, stopped at the first second
of 1970. It reaches as far as years can be told. -/
def gregorian (ahead : Int → Int) : Clock where
  now := momentAt 0 (ahead 0)
  moment? t :=
    let year := yearOfDay (t / 86400 + epochDay)
    if firstYear ≤ year ∧ year ≤ lastYear then some (momentAt t (t + ahead t)) else none

end Clock

end Stencil
