/- The shortest decimal notation that reads back as a given double. -/
import Stencil.Number.Double

namespace Stencil.Double

/-- A power of ten as a fraction. -/
structure Scale where
  num : Nat
  den : Nat

def Scale.tenTo (e : Int) : Scale := ⟨Nat.pow 10 e.toNat, Nat.pow 10 (-e).toNat⟩

/-- The exponent of the leading digit of a positive magnitude. -/
def leadingExponent (m : Nat) : Int :=
  if unitsPerOne ≤ m then ((Text.ofNat (m / unitsPerOne)).length : Int) - 1
  else -((Text.ofNat ((unitsPerOne + m - 1) / m - 1)).length : Int)

/-- Four times the distance from a magnitude to the lower end of what rounds to it. -/
def gapBelow (m : Nat) : Nat :=
  if Nat.pow 2 53 ≤ m && m == Nat.pow 2 m.log2 then spacing m else 2 * spacing m

/-- Whether `k × 10 ^ e` rounds to the magnitude; the ends of the interval belong to magnitudes
with an even significand. -/
def reaches (m : Nat) (e : Int) (k : Nat) : Bool :=
  let scale := Scale.tenTo e
  let point := 4 * (k * scale.num * unitsPerOne)
  let low := (4 * m - gapBelow m) * scale.den
  let high := (4 * m + 2 * spacing m) * scale.den
  if m / spacing m % 2 = 0 then decide (low ≤ point) && decide (point ≤ high)
  else decide (low < point) && decide (point < high)

/-- The point of the grid of step `10 ^ e` that reads back as the magnitude and is nearest to it;
halfway between two points, the even one. -/
def gridPoint? (m : Nat) (e : Int) : Option Nat :=
  let scale := Scale.tenTo e
  let num := m * scale.den
  let den := unitsPerOne * scale.num
  let k := num / den
  match reaches m e k, reaches m e (k + 1) with
  | true, true => some (roundQuotient num den)
  | true, false => some k
  | false, true => some (k + 1)
  | false, false => none

/-- Tries the grids with `count` further digits, coarse ones first. -/
def gridSearch (m : Nat) (e : Int) : Nat → Nat × Int
  | 0 => (m / unitsPerOne, 0)
  | count + 1 =>
    match gridPoint? m e with
    | some k => (k, e)
    | none => gridSearch m (e - 1) count

/-- The significant digits of a positive magnitude and the exponent of the first of them.
Seventeen digits always suffice. -/
def shortest (m : Nat) : Text × Int :=
  let (k, e) := gridSearch m (leadingExponent m) 17
  let ds := Text.ofNat k
  ((ds.reverse.dropWhile (· == '0')).reverse, e + ds.length - 1)

/-- Exponents between these are written without an exponent mark. -/
def plainExponents : Int × Int := (-5, 15)

/-- Positional notation, which always has a fraction. -/
def plainText (ds : Text) (e : Int) : Text :=
  if e < 0 then ['0', '.'] ++ List.replicate (-e - 1).toNat '0' ++ ds
  else
    let whole := e.toNat + 1
    let padded := ds ++ List.replicate (whole - ds.length) '0'
    padded.take whole ++ ['.'] ++ (if padded.length ≤ whole then ['0'] else padded.drop whole)

/-- Scientific notation, with a signed exponent and no fraction of zero. -/
def scientificText (ds : Text) (e : Int) : Text :=
  let mark : Text := if e < 0 then ['e', '-'] else ['e', '+']
  let fraction := if ds.length ≤ 1 then [] else '.' :: ds.drop 1
  ds.take 1 ++ fraction ++ mark ++ Text.ofNat e.natAbs

def magnitudeText (m : Nat) : Text :=
  if m = 0 then ['0', '.', '0']
  else
    let (ds, e) := shortest m
    if plainExponents.1 ≤ e ∧ e ≤ plainExponents.2 then plainText ds e else scientificText ds e

def text (x : Double) : Text :=
  if x.negative then '-' :: magnitudeText x.magnitude else magnitudeText x.magnitude

end Stencil.Double
