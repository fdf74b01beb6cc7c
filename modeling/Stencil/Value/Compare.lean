/- Equality and order of values in expressions. -/
import Stencil.Value.Basic

namespace Stencil.Value

mutual

/-- Equality of structure. Numbers of different kinds differ. -/
def same : Value → Value → Bool
  | .null, .null => true
  | .bool a, .bool b => a == b
  | .number a, .number b => a.same b
  | .text s, .text t => s == t
  | .array as, .array bs => sameItems as bs
  | .object fs, .object gs => sameFields fs gs
  | _, _ => false

def sameItems : List Value → List Value → Bool
  | [], [] => true
  | a :: as, b :: bs => same a b && sameItems as bs
  | _, _ => false

def sameFields : List (Text × Value) → List (Text × Value) → Bool
  | [], [] => true
  | (m, a) :: fs, (n, b) :: gs => m == n && same a b && sameFields fs gs
  | _, _ => false

end

def isCollection : Value → Bool
  | .array _ => true
  | .object _ => true
  | _ => false

/-- Equality of expressions: numbers by size, `null` with whatever does not hold, collections by
structure, and the rest by rendered text. -/
def looselyEqual (p : Platform) : Value → Value → Bool
  | .number a, .number b => a.units == b.units
  | .null, v => !v.isTruthy
  | v, .null => !v.isTruthy
  | v, w => if v.isCollection || w.isCollection then v.same w else v.render p == w.render p

/-- Two numbers are ordered by size and two texts by code points; nothing else is ordered. -/
def order? : Value → Value → Option Ordering
  | .number a, .number b => some (compare a.units b.units)
  | .text s, .text t => some (Text.order s t)
  | _, _ => none

end Stencil.Value
