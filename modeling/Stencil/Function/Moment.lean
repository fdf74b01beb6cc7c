/- Moments as a clock shows them, printed by format codes. -/
import Stencil.Text.Basic

namespace Stencil

/-- The date, the time of day and the names that a clock gives for a count of seconds since 1970.
Months and days are counted from one. -/
structure Moment where
  timestamp : Int
  year : Int
  month : Nat
  day : Nat
  hour : Nat
  minute : Nat
  second : Nat
  weekday : Text
  shortWeekday : Text
  monthName : Text
  shortMonth : Text
deriving DecidableEq

namespace Moment

/-- Pads with zeros to two digits. -/
def twoDigits (n : Nat) : Text := Text.padLeft 2 '0' (Text.ofNat n)

/-- Pads a year with zeros to four characters, of which a minus is one. -/
def yearText (y : Int) : Text :=
  if y < 0 then '-' :: Text.padLeft 3 '0' (Text.ofNat y.natAbs)
  else Text.padLeft 4 '0' (Text.ofNat y.natAbs)

/-- What a format code stands for; other characters stand for themselves. -/
def code (m : Moment) (c : Char) : Text :=
  match c with
  | 'Y' => yearText m.year
  | 'y' => twoDigits (m.year % 100).toNat
  | 'm' => twoDigits m.month
  | 'n' => Text.ofNat m.month
  | 'd' => twoDigits m.day
  | 'j' => Text.ofNat m.day
  | 'H' => twoDigits m.hour
  | 'G' => Text.ofNat m.hour
  | 'i' => twoDigits m.minute
  | 's' => twoDigits m.second
  | 'D' => m.shortWeekday
  | 'l' => m.weekday
  | 'M' => m.shortMonth
  | 'F' => m.monthName
  | 'U' => Text.ofInt m.timestamp
  | c => [c]

/-- Prints a moment by a format, in which a backslash makes the next character plain. -/
def format (m : Moment) : Text → Text
  | [] => []
  | ['\\'] => []
  | '\\' :: c :: cs => c :: format m cs
  | c :: cs => m.code c ++ format m cs

end Moment

end Stencil
