/- Outputs as they are written: a text that grows, and the source lines of its byte offsets. -/
import Stencil.Splice.Basic
import Stencil.Text.Slice

namespace Stencil

namespace Text

/-- The text cut behind each newline. -/
def linesWithEnds : Text → List Text
  | [] => []
  | c :: cs =>
    if c = '\n' then [c] :: linesWithEnds cs
    else
      match linesWithEnds cs with
      | [] => [[c]]
      | l :: ls => (c :: l) :: ls

/-- The newlines between two byte offsets, or none if these are not ends of characters. -/
def newlinesBetween (t : Text) (first last : Nat) : Nat := newlines ((t.slice? first last).getD [])

end Text

/-- What an output has from a byte offset on: text from a source line, or from that line on. -/
structure LineSpan where
  offset : Nat
  line : Nat
  advances : Bool

/-- The source line of a byte offset of the output that belongs to the span. -/
def LineSpan.lineAt (s : LineSpan) (output : Text) (offset : Nat) : Nat :=
  if s.advances then s.line + output.newlinesBetween s.offset offset else s.line

/-- The spans of an output by increasing offset. Without any the output is the source. -/
structure LineMap where
  spans : List LineSpan := []

namespace LineMap

def push (m : LineMap) (offset line : Nat) (advances : Bool) : LineMap :=
  ⟨m.spans ++ [⟨offset, line, advances⟩]⟩

/-- The last span that starts at the offset or before it. -/
def spanAt? (m : LineMap) (offset : Nat) : Option LineSpan :=
  (m.spans.takeWhile fun s => s.offset ≤ offset).getLast?

/-- The source line of a byte offset of the output. -/
def lineAt (m : LineMap) (output : Text) (offset : Nat) : Nat :=
  match m.spanAt? offset with
  | some s => s.lineAt output offset
  | none => 1 + output.newlinesBetween 0 offset

/-- The source line of a line of the output. -/
def sourceLine (m : LineMap) (output : Text) (line : Nat) : Nat :=
  m.lineAt output (Text.byteSize (output.linesWithEnds.take (line - 1)).flatten)

end LineMap

structure Output where
  text : Text := []
  lines : LineMap := {}

def Output.push (out : Output) (text : Text) (line : Nat) (advances : Bool) : Output :=
  ⟨out.text ++ text, out.lines.push out.text.byteSize line advances⟩

end Stencil
