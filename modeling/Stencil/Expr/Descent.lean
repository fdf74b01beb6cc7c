/- Parsing of expressions by recursive descent, where operators hold their operands by binding
powers. -/
import Stencil.Expr.Tokens
import Stencil.Outcome

namespace Stencil

/-- How tightly an operator holds the operands on its sides. -/
structure BindingPower where
  left : Nat
  right : Nat

namespace BindingPower

/-- Of two operators of this power the first one takes the operand between them. -/
def leftward (power : Nat) : BindingPower := ⟨power, power + 1⟩

/-- Of two operators of this power the second one takes the operand between them. -/
def rightward (power : Nat) : BindingPower := ⟨power + 1, power⟩

def conditional : BindingPower := rightward 2

/-- The power of `!` and `-` in front of an operand. -/
def sign : Nat := 12

end BindingPower

def BinaryOp.power : BinaryOp → BindingPower
  | .or => .leftward 4
  | .and => .leftward 6
  | .eq => .leftward 8
  | .notEq => .leftward 8
  | .lt => .leftward 10
  | .ltEq => .leftward 10
  | .gt => .leftward 10
  | .gtEq => .leftward 10

namespace Descent

/-- What was parsed, with the tokens behind it. -/
abbrev Parsed (α : Type) := Attempt ParseError (α × List ExprToken)

variable (stop : Nat)

/-- Takes a lexeme that has to stand there. -/
def expect (l : Lexeme) (missing : ParseErrorKind) : List ExprToken → Parsed Unit
  | [] => some (.error (.missingClosing missing stop .stop))
  | t :: ts =>
    if t.lexeme = l then some (.ok ((), ts))
    else some (.error (.missingClosing missing t.position (.lexeme t.lexeme)))

/-- The field that is named behind a dot. -/
def property : List ExprToken → Parsed Text
  | [] => some (.error { kind := .missingPropertyName, position := stop, found := some .stop })
  | t :: ts =>
    match t.lexeme.property? with
    | some name => some (.ok (name, ts))
    | none =>
      some (.error {
        kind := .missingPropertyName
        position := t.position
        found := some (.lexeme t.lexeme) })

-- Every call has less fuel than its caller; without any the parser breaks off.
mutual

/-- An operand and the operators behind it that have at least the power `least`. -/
def expression : Nat → Nat → List ExprToken → Parsed Expr
  | 0, _, _ => none
  | fuel + 1, least, ts =>
    (operand fuel ts).andThen fun (left, rest) => operators fuel least left rest

/-- The operators behind the operand `left`, and what they hold on their right. -/
def operators : Nat → Nat → Expr → List ExprToken → Parsed Expr
  | 0, _, _, _ => none
  | _ + 1, _, left, [] => some (.ok (left, []))
  | fuel + 1, least, left, t :: ts =>
    match t.lexeme with
    | .question =>
      if BindingPower.conditional.left < least then some (.ok (left, t :: ts))
      else
        (expression fuel 0 ts).andThen fun (yes, rest) =>
          (expect stop .colon .missingConditionalColon rest).andThen fun (_, rest) =>
            (expression fuel BindingPower.conditional.right rest).andThen fun (no, rest) =>
              operators fuel least (.ternary left yes no) rest
    | .op o =>
      if o.power.left < least then some (.ok (left, t :: ts))
      else
        (expression fuel o.power.right ts).andThen fun (right, rest) =>
          operators fuel least (.binary o left right) rest
    | _ => some (.ok (left, t :: ts))

def operand : Nat → List ExprToken → Parsed Expr
  | 0, _ => none
  | fuel + 1, ts =>
    match ts with
    | ⟨.bang, _⟩ :: rest =>
      (expression fuel BindingPower.sign rest).andThen fun (e, rest) => some (.ok (.not e, rest))
    | ⟨.minus, _⟩ :: rest =>
      (expression fuel BindingPower.sign rest).andThen fun (e, rest) => some (.ok (.neg e, rest))
    | _ => (primary fuel ts).andThen fun (target, rest) => members fuel target rest

/-- The members that are taken of `target`, one of the other. -/
def members : Nat → Expr → List ExprToken → Parsed Expr
  | 0, _, _ => none
  | _ + 1, target, [] => some (.ok (target, []))
  | fuel + 1, target, t :: ts =>
    match t.lexeme with
    | .openBracket =>
      (expression fuel 0 ts).andThen fun (key, rest) =>
        (expect stop .closeBracket .missingClosingBracket rest).andThen fun (_, rest) =>
          members fuel (.index target key) rest
    | .dot => (property stop ts).andThen fun (name, rest) => members fuel (.field target name) rest
    | _ => some (.ok (target, t :: ts))

def primary : Nat → List ExprToken → Parsed Expr
  | 0, _ => none
  | _ + 1, [] =>
    some (.error { kind := .unexpectedEnd, position := stop, expected := ["expression"] })
  | fuel + 1, t :: ts =>
    match t.lexeme with
    | .text v => some (.ok (.literal (.text v), ts))
    | .number n => some (.ok (.literal (.number n), ts))
    | .var name => some (.ok (.var name, ts))
    | .ident name =>
      match ts with
      | ⟨.openParen, _⟩ :: rest =>
        (arguments fuel [] rest).andThen fun (args, rest) => some (.ok (.call name args, rest))
      | _ => some (.ok (.ofName name, ts))
    | .openParen =>
      (expression fuel 0 ts).andThen fun (e, rest) =>
        (expect stop .closeParen .missingClosingParen rest).andThen fun (_, rest) =>
          some (.ok (e, rest))
    | l =>
      some (.error {
        kind := .expectedExpression
        position := t.position
        found := some (.lexeme l) })

/-- The arguments of a call behind those in `done`, up to the closing parenthesis. -/
def arguments : Nat → List Expr → List ExprToken → Parsed (List Expr)
  | 0, _, _ => none
  | fuel + 1, done, ts =>
    match ts with
    | ⟨.closeParen, _⟩ :: rest => some (.ok (done, rest))
    | _ =>
      (expression fuel 0 ts).andThen fun (e, rest) =>
        match rest with
        | [] => some (.error (.missingClosing .missingClosingParen stop .stop))
        | t :: rest =>
          match t.lexeme with
          | .comma => arguments fuel (done ++ [e]) rest
          | .closeParen => some (.ok (done ++ [e], rest))
          | l =>
            some (.error {
              kind := .unexpectedToken
              position := t.position
              expected := ["','", "')'"]
              found := some (.lexeme l) })

end

/-- An expression behind which nothing is left. -/
def complete (fuel : Nat) (ts : List ExprToken) : Attempt ParseError Expr :=
  (expression stop fuel 0 ts).andThen fun (e, rest) =>
    match rest with
    | [] => some (.ok e)
    | t :: _ =>
      some (.error {
        kind := .trailingInput
        position := t.position
        found := some (.lexeme t.lexeme) })

end Descent

/-- Parses tokens by recursive descent. Between two tokens there are at most four calls. -/
def TokenRun.descend (r : TokenRun) : Attempt ParseError Expr :=
  Descent.complete r.stop (4 * r.tokens.length + 3) r.tokens

/-- Parses an expression by recursive descent. -/
def Expr.descend (t : Text) : Attempt ParseError Expr :=
  match exprTokens t with
  | .ok r => r.descend
  | .error e => some (.error e)

end Stencil
