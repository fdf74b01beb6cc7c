/- The line of a source that a message points at, cut to fit, with the place of the caret. -/
import Stencil.Text.Basic

namespace Stencil

/-- Lines and columns count from one, the caret's column in the line as shown from zero. -/
structure Excerpt where
  line : Nat
  column : Nat
  shown : Text
  caret : Nat
deriving DecidableEq

namespace Excerpt

def tabWidth : Nat := 4

/-- Lines up to this length are shown whole. -/
def fullLength : Nat := 80

/-- Of longer lines this much is shown on either side of the caret. -/
def context : Nat := 30

def ellipsis : Text := "...".toList

def expandTabs (t : Text) : Text :=
  t.flatMap fun c => if c = '\t' then List.replicate tabWidth ' ' else [c]

def dropReturns (t : Text) : Text := (t.reverse.dropWhile (· == '\r')).reverse

/-- A line of text around a caret column, and the column in what is left of it. -/
def cut (t : Text) (caret : Nat) : Text × Nat :=
  if t.length ≤ fullLength then (t, caret)
  else
    let first := caret - context
    let last := min (caret + context) t.length
    let before := if 0 < first then ellipsis else []
    let after := if last < t.length then ellipsis else []
    (before ++ (t.take last).drop first ++ after, caret - first + before.length)

/-- The excerpt of a line, which points at its first character that is not white space. -/
def ofLine (line : Nat) (content : Text) : Excerpt :=
  let indent := (content.takeWhile Unicode.isBlank).length
  let visible := dropReturns content
  let (shown, caret) := cut (expandTabs visible) (expandTabs (visible.take indent)).length
  ⟨line, indent + 1, shown, caret⟩

/-- The excerpt of a line of the source, if it has that line. -/
def at? (source : Text) (line : Nat) : Option Excerpt :=
  if line = 0 then none else (source.lines[line - 1]?).map (ofLine line)

end Excerpt

end Stencil
