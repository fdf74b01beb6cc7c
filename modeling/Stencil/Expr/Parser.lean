/- Parsing of expressions token by token. What is still open is kept as two stacks: the operators
that wait for their right operand, and the brackets around them. -/
import Stencil.Expr.Tokens

namespace Stencil

/-- An operator that waits for the end of its last operand. -/
inductive Pending where
  | not
  | neg
  | binary (op : BinaryOp) (left : Expr)
  | otherwise (condition yes : Expr)

namespace Pending

def strength : Pending → Nat
  | .not => 7
  | .neg => 7
  | .binary op _ => op.strength
  | .otherwise _ _ => 1

/-- A question mark ends its condition there, and so stays inside the branch of another one. -/
def conditionStrength : Nat := 2

def complete (operand : Expr) : Pending → Expr
  | .not => .not operand
  | .neg => .neg operand
  | .binary op left => .binary op left operand
  | .otherwise condition yes => .ternary condition yes operand

end Pending

/-- Completes the pending operators that bind at least as tightly as `strength`, innermost first. -/
def settle (strength : Nat) : List Pending → Expr → List Pending × Expr
  | [], e => ([], e)
  | p :: ps, e =>
    if strength ≤ p.strength then settle strength ps (p.complete e) else (p :: ps, e)

/-- Completes every pending operator. -/
def settleAll (ps : List Pending) (e : Expr) : Expr := ps.foldl (fun e p => p.complete e) e

/-- A construct that a later token has to close. -/
inductive Bracket where
  | group
  | call (name : Text) (done : List Expr)
  | index (target : Expr)
  | conditional (condition : Expr)

/-- What the next token can continue. -/
inductive Phase where
  | operand
  | name (name : Text)
  | value (e : Expr)
  | property (target : Expr)

/-- An expression read in part. Each open bracket keeps the operators that wait outside it. -/
structure Progress where
  enclosing : List (Bracket × List Pending)
  pending : List Pending
  phase : Phase

namespace Progress

def start : Progress := ⟨[], [], .operand⟩

def enter (b : Bracket) (outside : List Pending) (s : Progress) : Progress :=
  ⟨(b, outside) :: s.enclosing, [], .operand⟩

def wait (p : Pending) (ps : List Pending) (s : Progress) : Progress :=
  ⟨s.enclosing, p :: ps, .operand⟩

/-- The error for a lexeme, or the end, that does not continue a complete expression. -/
def unclosed (s : Progress) (position : Nat) (found : Option Lexeme) : ParseError :=
  let shown := match found with
    | some l => .lexeme l
    | none => .stop
  match s.enclosing with
  | [] => { kind := .trailingInput, position, found := some shown }
  | (.group, _) :: _ => .missingClosing .missingClosingParen position shown
  | (.call _ _, _) :: _ =>
    if found.isNone then .missingClosing .missingClosingParen position shown
    else { kind := .unexpectedToken, position, expected := ["','", "')'"], found := some shown }
  | (.index _, _) :: _ => .missingClosing .missingClosingBracket position shown
  | (.conditional _, _) :: _ => .missingClosing .missingConditionalColon position shown

/-- Closes the innermost bracket around the complete expression `e`. -/
def close? (s : Progress) (e : Expr) (l : Lexeme) : Option Progress :=
  match s.enclosing, l with
  | (.group, outside) :: rest, .closeParen => some ⟨rest, outside, .value e⟩
  | (.call name done, outside) :: rest, .closeParen =>
    some ⟨rest, outside, .value (.call name (done ++ [e]))⟩
  | (.call name done, outside) :: rest, .comma =>
    some ⟨(.call name (done ++ [e]), outside) :: rest, [], .operand⟩
  | (.index target, outside) :: rest, .closeBracket =>
    some ⟨rest, outside, .value (.index target e)⟩
  | (.conditional condition, outside) :: rest, .colon =>
    some ⟨rest, .otherwise condition e :: outside, .operand⟩
  | _, _ => none

/-- The step at a token where an operand may start. An argument list may end here. -/
def atOperand (s : Progress) (t : ExprToken) : Except ParseError Progress :=
  match t.lexeme with
  | .text v => .ok { s with phase := .value (.literal (.text v)) }
  | .number n => .ok { s with phase := .value (.literal (.number n)) }
  | .var name => .ok { s with phase := .value (.var name) }
  | .ident name => .ok { s with phase := .name name }
  | .openParen => .ok (s.enter .group s.pending)
  | .bang => .ok (s.wait .not s.pending)
  | .minus => .ok (s.wait .neg s.pending)
  | l =>
    match l, s.enclosing, s.pending with
    | .closeParen, (.call name done, outside) :: rest, [] =>
      .ok ⟨rest, outside, .value (.call name done)⟩
    | _, _, _ =>
      .error { kind := .expectedExpression, position := t.position, found := some (.lexeme l) }

/-- The step at a token after the operand `e`. -/
def afterValue (s : Progress) (e : Expr) (t : ExprToken) : Except ParseError Progress :=
  match t.lexeme with
  | .openBracket => .ok (s.enter (.index e) s.pending)
  | .dot => .ok { s with phase := .property e }
  | .op o =>
    let (ps, left) := settle o.strength s.pending e
    .ok (s.wait (.binary o left) ps)
  | .question =>
    let (ps, condition) := settle Pending.conditionStrength s.pending e
    .ok (s.enter (.conditional condition) ps)
  | l =>
    match s.close? (settleAll s.pending e) l with
    | some next => .ok next
    | none => .error (s.unclosed t.position (some l))

/-- The step at a token after a dot. -/
def atProperty (s : Progress) (target : Expr) (t : ExprToken) : Except ParseError Progress :=
  match t.lexeme.property? with
  | some name => .ok { s with phase := .value (.field target name) }
  | none =>
    .error {
      kind := .missingPropertyName
      position := t.position
      found := some (.lexeme t.lexeme) }

def step (s : Progress) (t : ExprToken) : Except ParseError Progress :=
  match s.phase with
  | .operand => s.atOperand t
  | .name name =>
    if t.lexeme = .openParen then .ok (s.enter (.call name []) s.pending)
    else s.afterValue (.ofName name) t
  | .value e => s.afterValue e t
  | .property target => s.atProperty target t

def finishValue (s : Progress) (e : Expr) (stop : Nat) : Except ParseError Expr :=
  if s.enclosing.isEmpty then .ok (settleAll s.pending e) else .error (s.unclosed stop none)

def finish (s : Progress) (stop : Nat) : Except ParseError Expr :=
  match s.phase with
  | .operand => .error { kind := .unexpectedEnd, position := stop, expected := ["expression"] }
  | .name name => s.finishValue (.ofName name) stop
  | .value e => s.finishValue e stop
  | .property _ =>
    .error { kind := .missingPropertyName, position := stop, found := some .stop }

/-- Reads tokens from left to right up to the first that nothing can continue. -/
def run (s : Progress) : List ExprToken → Except ParseError Progress
  | [] => .ok s
  | t :: ts =>
    match s.step t with
    | .ok next => next.run ts
    | .error e => .error e

theorem run_append (s : Progress) (ts us : List ExprToken) :
    s.run (ts ++ us) =
      match s.run ts with
      | .ok next => next.run us
      | .error e => .error e := by
  induction ts generalizing s with
  | nil => rfl
  | cons t ts ih =>
    rw [List.cons_append, run, run]
    cases s.step t with
    | ok next => exact ih next
    | error e => rfl

end Progress

def TokenRun.parse (r : TokenRun) : Except ParseError Expr :=
  match Progress.start.run r.tokens with
  | .ok s => s.finish r.stop
  | .error e => .error e

def Expr.parse (t : Text) : Except ParseError Expr :=
  match exprTokens t with
  | .ok r => r.parse
  | .error e => .error e

end Stencil
