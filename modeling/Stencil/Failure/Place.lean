/- Reports about a byte offset of a source. What reaches beyond a text or below zero is `none`. -/
import Stencil.Failure.Diagnostic
import Stencil.Text.Slice

namespace Stencil

/-- A difference that is not below zero. -/
def difference? (m n : Nat) : Option Nat := if n ≤ m then some (m - n) else none

namespace Text

/-- The text between two positions, counted in characters. -/
def window? (t : Text) (first last : Nat) : Option Text :=
  if first ≤ last ∧ last ≤ t.length then some ((t.take last).drop first) else none

/-- Whether no character reaches across a byte offset. -/
def isBoundary (t : Text) (offset : Nat) : Bool := (t.splitBytes? offset).isSome

/-- Steps back byte by byte to an offset that no character reaches across. -/
def boundaryFrom? (t : Text) : Nat → Option Nat
  | 0 => if t.isBoundary 0 then some 0 else none
  | offset + 1 => if t.isBoundary (offset + 1) then some (offset + 1) else t.boundaryFrom? offset

/-- The byte offset behind the last newline. -/
def lastLineStart (t : Text) : Nat := byteSize (t.reverse.dropWhile (· ≠ '\n')).reverse

/-- The byte offset of the first character on a line that is not white space, or of the end of the
line. The first of the lines has number `index` and starts at byte `start`. -/
def lineOffsetFrom? (line : Nat) : Nat → Nat → List Text → Option Nat
  | _, _, [] => none
  | index, start, content :: rest =>
    if index = line then
      let indent := content.byteSize - content.trimStart.byteSize
      some (start + min indent content.byteSize)
    else lineOffsetFrom? line (index + 1) (start + content.byteSize + 1) rest

def lineOffset? (source : Text) (line : Nat) : Option Nat :=
  lineOffsetFrom? line 1 0 source.lines

end Text

/-- A line and a column of a source, both counted from one. -/
structure Place where
  line : Nat
  column : Nat
deriving DecidableEq

/-- The place of the character that a byte offset lies in. -/
def Place.ofOffset? (source : Text) (offset : Nat) : Option Place :=
  (source.boundaryFrom? (min offset source.byteSize)).bind fun stop =>
    (source.slice? 0 stop).bind fun before =>
      (source.slice? before.lastLineStart stop).map fun current =>
        ⟨before.newlines + 1, current.length + 1⟩

namespace Excerpt

/-- How many columns a text takes. -/
def columns : Text → Nat
  | [] => 0
  | c :: cs => (if c = '\t' then tabWidth else 1) + columns cs

/-- A line of text around a caret column, and the column in what is left of it. -/
def cut? (t : Text) (caret : Nat) : Option (Text × Nat) :=
  if t.length ≤ fullLength then some (t, caret)
  else
    let first := min (caret - context) t.length
    let last := min (caret + context) t.length
    let before := if 0 < first then ellipsis else []
    let after := if last < t.length then ellipsis else []
    (t.window? first last).bind fun stretch =>
      (difference? caret first).map fun column =>
        (before ++ stretch ++ after, column + before.byteSize)

/-- The excerpt of a line with the caret at a column of it. -/
def ofColumn? (p : Place) (content : Text) : Option Excerpt :=
  let visible := dropReturns content
  (difference? p.column 1).bind fun before =>
    (cut? (expandTabs visible) (columns (visible.take before))).map fun cut =>
      ⟨p.line, p.column, cut.1, cut.2⟩

end Excerpt

open Diagnostic in
/-- The lines that show a place. If the source has no such line, it is only named. -/
def placeLines? (source : Text) (p : Place) (filename : String) : Option (List String) :=
  (difference? p.line 1).bind fun row =>
    match source.lines[row]? with
    | none => some [s!" --> {filename}:{p.line}:{p.column}"]
    | some content => (Excerpt.ofColumn? p content).map (excerptLines · filename)

/-- The text of a report, given the lines that name the place. -/
def reportText (message : String) (help : Option String) (place : List String) : String :=
  let helpLines := match help with
    | some h => [s!"help: {h}"]
    | none => []
  "".intercalate ((s!"error: {message}" :: place ++ helpLines).map (· ++ "\n"))

/-- The report about a byte offset of a source. -/
def reportAt? (message : String) (help : Option String) (source : Text) (filename : String)
    (offset : Nat) : Option String :=
  (Place.ofOffset? source offset).bind fun p =>
    (placeLines? source p filename).map (reportText message help)

end Stencil
