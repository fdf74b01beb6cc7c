/- Escaping of what sanitized tags insert. -/
import Stencil.Text.Basic

namespace Stencil

/-- What is done to the value of a sanitized tag. -/
abbrev Escaper := Text → Text

/-- The entity of a character that is markup, and any other character as it is. -/
def htmlChar (c : Char) : Text :=
  match c with
  | '&' => "&amp;".toList
  | '<' => "&lt;".toList
  | '>' => "&gt;".toList
  | '"' => "&quot;".toList
  | '\'' => "&#039;".toList
  | c => [c]

def Escaper.html : Escaper := List.flatMap htmlChar

/-- Leaves the text alone. -/
def Escaper.raw : Escaper := id

end Stencil
