/- Why a text is no expression. Positions are byte offsets into the text. -/
import Stencil.Expr.Lexeme

namespace Stencil

inductive ParseErrorKind where
  | unexpectedCharacter
  | unexpectedToken
  | unexpectedEnd
  | expectedExpression
  | missingClosingParen
  | missingClosingBracket
  | missingConditionalColon
  | missingPropertyName
  | missingVariableName
  | unterminatedString
  | invalidNumber
  | trailingInput
deriving DecidableEq

namespace ParseErrorKind

def description : ParseErrorKind → String
  | .unexpectedCharacter => "unexpected character"
  | .unexpectedToken => "unexpected token"
  | .unexpectedEnd => "unexpected end of expression"
  | .expectedExpression => "expected expression"
  | .missingClosingParen => "missing closing parenthesis ')'"
  | .missingClosingBracket => "missing closing bracket ']'"
  | .missingConditionalColon => "missing ':' in conditional expression"
  | .missingPropertyName => "missing property name after '.'"
  | .missingVariableName => "missing variable name after '$'"
  | .unterminatedString => "unterminated string literal"
  | .invalidNumber => "invalid numeric literal"
  | .trailingInput => "unexpected input after expression"

/-- What would have closed the construct that is left open. -/
def closer : ParseErrorKind → String
  | .missingClosingParen => "')'"
  | .missingClosingBracket => "']'"
  | .missingConditionalColon => "':'"
  | _ => "delimiter"

end ParseErrorKind

/-- What stands where something else was expected: a lexeme, or what is described in words. -/
inductive Found where
  | shown (s : String)
  | lexeme (l : Lexeme)
deriving DecidableEq

namespace Found

def stop : Found := .shown "end of expression"

def describe (p : Platform) : Found → String
  | .shown s => s
  | .lexeme l => l.describe p

end Found

structure ParseError where
  kind : ParseErrorKind
  position : Nat
  expected : List String := []
  found : Option Found := none
  help : Option String := none
deriving DecidableEq

namespace ParseError

def missingClosing (kind : ParseErrorKind) (position : Nat) (found : Found) : ParseError :=
  ⟨kind, position, [kind.closer], some found, none⟩

def expectedText : List String → String
  | [] => ""
  | [x] => s!", expected {x}"
  | xs => ", expected one of: " ++ ", ".intercalate xs

def message (p : Platform) (e : ParseError) : String :=
  let found := match e.found with
    | some x => s!", found {x.describe p}"
    | none => ""
  e.kind.description ++ found ++ expectedText e.expected ++ s!" at offset {e.position}"

end ParseError

end Stencil
