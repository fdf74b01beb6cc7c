/- Why a template cannot be cut into segments. -/
import Stencil.Text.Basic

namespace Stencil

inductive LexErrorKind where
  | unterminatedDirective
  | unterminatedTag
  | unterminatedString
  | missingDirectiveName
deriving DecidableEq

namespace LexErrorKind

def description : LexErrorKind → String
  | .unterminatedDirective => "unterminated directive"
  | .unterminatedTag => "unterminated tag"
  | .unterminatedString => "unterminated string literal"
  | .missingDirectiveName => "missing directive name"

def suggestion : LexErrorKind → String
  | .unterminatedDirective => "add the directive close delimiter"
  | .unterminatedTag => "add the tag close delimiter"
  | .unterminatedString => "add a closing quote \" or '"
  | .missingDirectiveName => "start the directive with a name, e.g. show(\"name\")"

end LexErrorKind

/-- `line` is where the fault shows, `openedAt` where the unfinished construct starts. -/
structure LexError where
  kind : LexErrorKind
  line : Nat
  openedAt : Option Nat := none
  expected : Option String := none
  found : Option String := none
  ownHelp : Option String := none
deriving DecidableEq

namespace LexError

def unterminatedRegion (kind : LexErrorKind) (line openedAt : Nat) (closing : Text) : LexError where
  kind := kind
  line := line
  openedAt := some openedAt
  expected := some s!"`{closing.string}`"
  found := some "end of input"

def unterminatedString (line openedAt : Nat) (quote : Char) : LexError where
  kind := .unterminatedString
  line := line
  openedAt := some openedAt
  expected := some s!"closing {quote}"
  found := some "end of input"
  ownHelp := some s!"add {quote} to close the string"

def missingDirectiveName (line : Nat) (body : Text) : LexError where
  kind := .missingDirectiveName
  line := line
  expected := some "directive name"
  found := some s!"`{body.trim.string}`"

def help (e : LexError) : String := e.ownHelp.getD e.kind.suggestion

/-- The opening line is named only where it differs. -/
def message (e : LexError) : String :=
  let expected := match e.expected with
    | some x => s!", expected {x}"
    | none => ""
  let found := match e.found with
    | some x => s!", found {x}"
    | none => ""
  let opened := match e.openedAt with
    | some n => if n = e.line then "" else s!" (opened on line {n})"
    | none => ""
  e.kind.description ++ expected ++ found ++ opened

def display (e : LexError) : String := s!"line {e.line}: {e.message}"

end LexError

end Stencil
