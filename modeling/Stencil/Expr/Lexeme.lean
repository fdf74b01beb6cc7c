/- The lexemes of expressions. -/
import Stencil.Expr.Basic

namespace Stencil

inductive Lexeme where
  | text (t : Text)
  | number (n : Number)
  | var (name : Text)
  | ident (name : Text)
  | openParen
  | closeParen
  | openBracket
  | closeBracket
  | comma
  | dot
  | question
  | colon
  | bang
  | minus
  | op (o : BinaryOp)
deriving DecidableEq

/-- How messages name a lexeme. -/
def Lexeme.describe (p : Platform) : Lexeme → String
  | .text t => s!"string {t.shown.string}"
  | .number n => s!"number {(n.text p).string}"
  | .var name => s!"'${name.string}'"
  | .ident name => s!"'{name.string}'"
  | .openParen => "'('"
  | .closeParen => "')'"
  | .openBracket => "'['"
  | .closeBracket => "']'"
  | .comma => "','"
  | .dot => "'.'"
  | .question => "'?'"
  | .colon => "':'"
  | .bang => "'!'"
  | .minus => "'-'"
  | .op o => s!"'{o.spelling}'"

/-- The field that a lexeme after a dot names: a name, or a whole number as a position. -/
def Lexeme.property? : Lexeme → Option Text
  | .ident name => some name
  | .number n => n.index?.map Text.ofNat
  | _ => none

end Stencil
