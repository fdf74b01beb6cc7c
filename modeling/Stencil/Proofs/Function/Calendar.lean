/- The calendar: each second has the fields of one date, and later seconds have later ones. -/
import Mathlib.Algebra.GroupWithZero.Nat
import Stencil.Function.Calendar

namespace Stencil

section Comparison

variable {α β : Type} [Ord α] [LT α] [LE α] [Std.LawfulOrderOrd α] [Std.LawfulOrderLT α]
  [Ord β] [LT β] [LE β] [Std.LawfulOrderOrd β] [Std.LawfulOrderLT β] [Std.LawfulEqOrd β]
  {a b : α} {x y : β}

end Comparison

section Years

variable {y z : Int}

/-- The second with which a year begins, counted from 1970. -/
def yearStart (y : Int) : Int := (daysBeforeYear y - epochDay) * 86400

end Years

namespace Moment

/-- Days of the year before that of the moment. -/
def dayOfYear (m : Moment) : Nat := ((monthLengths m.year).take (m.month - 1)).sum + (m.day - 1)

def secondOfDay (m : Moment) : Nat := m.hour * 3600 + m.minute * 60 + m.second

/-- The date and the time of day are those that a second, counted from 1970, has in the Gregorian
calendar. -/
structure Shows (m : Moment) (second : Int) : Prop where
  month_pos : 0 < m.month
  day_pos : 0 < m.day
  day_le : ∃ length, (monthLengths m.year)[m.month - 1]? = some length ∧ m.day ≤ length
  hour_lt : m.hour < 24
  minute_lt : m.minute < 60
  second_lt : m.second < 60
  second_eq : second = (daysBeforeYear m.year + m.dayOfYear - epochDay) * 86400 + m.secondOfDay

namespace Shows

variable {m n : Moment} {s s' : Int}

end Shows

end Moment

namespace Clock

/-- What is known of the clock of a zone that is so many seconds ahead of universal time, always by
less than a day. It reaches 262000 years back and forth, and a timestamp is shown as the second of
the calendar that is so far ahead of it. -/
structure Keeps (clock : Clock) (ahead : Int → Int) : Prop where
  ahead_lt : ∀ t, (ahead t).natAbs < 86400
  exists_moment : ∀ t, yearStart (-262000) ≤ t → t < yearStart 262000 →
    ∃ m, clock.moment? t = some m
  timestamp_eq : ∀ t m, clock.moment? t = some m → m.timestamp = t
  shows : ∀ t m, clock.moment? t = some m → m.Shows (t + ahead t)

end Clock

end Stencil
