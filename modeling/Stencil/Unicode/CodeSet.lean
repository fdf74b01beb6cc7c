/- Sets of code points as increasing lists of boundaries. The tables follow Unicode 17.0. -/

namespace Stencil.Unicode

/-- A point is inside when an odd number of boundaries lie at or below it. -/
abbrev CodeSet := List Nat

def CodeSet.holds : CodeSet → Nat → Bool
  | [], _ => false
  | b :: bs, n => if n < b then false else !holds bs n

theorem CodeSet.holds_of_lt {b n : Nat} {bs : CodeSet} (h : n < b) :
    CodeSet.holds (b :: bs) n = false := by
  simp [CodeSet.holds, h]

theorem CodeSet.holds_of_le {b n : Nat} {bs : CodeSet} (h : b ≤ n) :
    CodeSet.holds (b :: bs) n = !CodeSet.holds bs n := by
  simp [CodeSet.holds, Nat.not_lt.mpr h]

end Stencil.Unicode
