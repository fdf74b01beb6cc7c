/- Numbers of templates: integers of a signed or an unsigned 64-bit word, and finite doubles. -/
import Stencil.Platform

namespace Stencil

/-- The integer 1 and the double 1.0 are different numbers that compare equal. -/
inductive Number where
  | int (n : Int)
  | double (x : Double)
deriving DecidableEq

namespace Number

def greatestSigned : Int := Int.pow 2 63 - 1

/-- The number as a double, in units of the least positive one. Comparisons go through it. -/
def units : Number → Int
  | .int n => (Double.ofInt n).units
  | .double x => x.units

/-- Equality within one kind of number, for which both zeros are one. -/
def same : Number → Number → Bool
  | .int a, .int b => a == b
  | .double x, .double y => x.units == y.units
  | _, _ => false

def text (p : Platform) : Number → Text
  | .int n => Text.ofInt n
  | .double x => p.doubleText x

/-- An integer whose opposite is a signed word stays an integer; others become doubles. -/
def negate : Number → Number
  | .int n =>
    if -greatestSigned ≤ n ∧ n ≤ greatestSigned then .int (-n) else .double (Double.ofInt n).neg
  | .double x => .double x.neg

/-- The position that a number names in a list. -/
def index? : Number → Option Nat
  | .int n => if 0 ≤ n then some n.toNat else none
  | .double _ => none

/-- Reads the digits of a literal: a signed word if there is no fraction and it fits, else the
nearest double. -/
def ofLiteral? (whole : Text) (fraction : Option Text) : Option Number :=
  let n : Int := Nat.ofDigitChars 10 whole 0
  if fraction.isNone ∧ n ≤ greatestSigned then some (.int n)
  else (Double.ofDigits? false whole (fraction.getD []) 0).map .double

end Number

end Stencil
