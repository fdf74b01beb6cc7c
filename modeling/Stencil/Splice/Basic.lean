/- Text put together from pieces of several templates, with the source lines of the pieces. -/
import Stencil.Failure.Basic

namespace Stencil

/-- Where a text stands in the source: from a line on, or all of it on the line that brought it
in. -/
inductive Origin where
  | source (firstLine : Nat)
  | fixed (line : Nat)
deriving DecidableEq

namespace Origin

/-- The source line of a line of the text. -/
def line (o : Origin) (n : Nat) : Nat :=
  match o with
  | .source first => first + (n - 1)
  | .fixed line => line

def advances : Origin → Bool
  | .source _ => true
  | .fixed _ => false

/-- A fault of the text, reported in the source. -/
def relocate (o : Origin) (f : Failure) : Failure := { f with line := o.line f.line }

end Origin

/-- A piece that starts on a source line; its further lines are the next ones if it advances. -/
structure Chunk where
  text : Text
  line : Nat
  advances : Bool
deriving DecidableEq

/-- The source line after the first `n` characters of a piece. -/
def Chunk.lineAt (c : Chunk) (n : Nat) : Nat :=
  if c.advances then c.line + Text.newlines (c.text.take n) else c.line

abbrev Splice := List Chunk

namespace Splice

/-- A source as it stands. -/
def whole (t : Text) : Splice := [⟨t, 1, true⟩]

def text (s : Splice) : Text := s.flatMap Chunk.text

@[simp] theorem text_append (s u : Splice) : text (s ++ u) = s.text ++ u.text :=
  List.flatMap_append

/-- The source line at a position of the text, counted in characters; the end of the text belongs to
the last piece. -/
def lineAt : Splice → Nat → Nat
  | [], _ => 1
  | [c], n => c.lineAt n
  | c :: d :: ds, n =>
    if n < c.text.length then c.lineAt n else lineAt (d :: ds) (n - c.text.length)

end Splice

/-- The number of characters before line `n` of a text, or all of them if it has no such line. -/
def Text.lineStart : Nat → Text → Nat
  | _, [] => 0
  | n, c :: cs => if n ≤ 1 then 0 else 1 + Text.lineStart (if c = '\n' then n - 1 else n) cs

/-- The source line of a line of the text. -/
def Splice.sourceLine (s : Splice) (n : Nat) : Nat := s.lineAt (Text.lineStart n s.text)

end Stencil
