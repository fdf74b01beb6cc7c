/- Finite double-precision numbers as exact whole multiples of the least positive one, and the
rounding of fractions to them. -/
import Stencil.Text.Basic

namespace Stencil

/-- A sign and a magnitude in units of 2 ^ -1074; zero has both signs. -/
structure Double where
  negative : Bool
  magnitude : Nat
deriving DecidableEq

namespace Double

/-- The number of units in one. -/
def unitsPerOne : Nat := Nat.pow 2 1074

/-- Magnitudes from here on are infinite. -/
def overflow : Nat := Nat.pow 2 2098

/-- The distance between doubles at a magnitude, so that 53 bits are significant. -/
def spacing (magnitude : Nat) : Nat := Nat.pow 2 (magnitude.log2 - 52)

/-- The whole number nearest to a fraction; halfway, the even one. -/
def roundQuotient (num den : Nat) : Nat :=
  let q := num / den
  let r := num % den
  if 2 * r < den then q else if den < 2 * r then q + 1 else q + q % 2

/-- The magnitude nearest to `num / den`, with an unbounded exponent. -/
def nearest (num den : Nat) : Nat :=
  let units := num * unitsPerOne
  let gap := spacing (units / den)
  roundQuotient units (den * gap) * gap

def ofRatio? (negative : Bool) (num den : Nat) : Option Double :=
  let m := nearest num den
  if m < overflow then some ⟨negative, m⟩ else none

/-- The double nearest to an integer of at most 64 bits, which never overflows. -/
def ofInt (n : Int) : Double := ⟨decide (n < 0), nearest n.natAbs 1⟩

/-- The number in units, without the sign of zero. -/
def units (x : Double) : Int := if x.negative then -(x.magnitude : Int) else x.magnitude

def neg (x : Double) : Double := ⟨!x.negative, x.magnitude⟩

def isDigits (t : Text) : Bool := t.all Char.isDigit

/-- The exponent after the mark `e`: an optional sign and at least one digit. -/
def readExponent? (t : Text) : Option Int :=
  let (negative, ds) :=
    match t with
    | '-' :: ds => (true, ds)
    | '+' :: ds => (false, ds)
    | ds => (false, ds)
  if ds.isEmpty || !isDigits ds then none
  else
    let n : Int := Nat.ofDigitChars 10 ds 0
    some (if negative then -n else n)

/-- The double nearest to `whole.fraction × 10 ^ exponent`, both parts given by their digits. -/
def ofDigits? (negative : Bool) (whole fraction : Text) (exponent : Int) : Option Double :=
  let coefficient := Nat.ofDigitChars 10 (whole ++ fraction) 0
  let e := exponent - fraction.length
  ofRatio? negative (coefficient * Nat.pow 10 e.toNat) (Nat.pow 10 (-e).toNat)

/-- Reads decimal notation: an optional sign, digits with an optional fraction, an optional
exponent. A number that overflows is not read. -/
def read? (t : Text) : Option Double :=
  let (negative, t) :=
    match t with
    | '-' :: ds => (true, ds)
    | '+' :: ds => (false, ds)
    | ds => (false, ds)
  let whole := t.takeWhile Char.isDigit
  let rest := t.dropWhile Char.isDigit
  let (fraction, rest) :=
    match rest with
    | '.' :: ds => (ds.takeWhile Char.isDigit, ds.dropWhile Char.isDigit)
    | ds => ([], ds)
  if whole.isEmpty && fraction.isEmpty then none
  else
    match rest with
    | [] => ofDigits? negative whole fraction 0
    | c :: ds =>
      if c = 'e' || c = 'E' then (readExponent? ds).bind (ofDigits? negative whole fraction)
      else none

end Double

end Stencil
