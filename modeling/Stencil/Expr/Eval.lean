/- Evaluation of expressions against tags, variables and functions. -/
import Stencil.Expr.Basic
import Stencil.Function.Registry
import Stencil.Value.Compare

namespace Stencil

/-- What the names in an expression mean. -/
structure Scope where
  tag? : Text → Option Text
  var? : Text → Option Value
  functions : Functions

inductive EvalError where
  | undefinedVariable (name : Text)
  | unresolvedIdentifier (name : Text)
  | unknownFunction (name : Text)
  | notANumber (shown : Text)
  | function (e : FunctionError)
deriving DecidableEq

def EvalError.message : EvalError → String
  | .undefinedVariable name => s!"undefined variable `${name.string}`"
  | .unresolvedIdentifier name =>
    s!"unresolved identifier `{name.string}`: not a tag, string literal, or function call"
  | .unknownFunction name => s!"call to unknown function `{name.string}`"
  | .notANumber shown => s!"cannot negate non-numeric value {shown.string}"
  | .function e => e.message

namespace Value

def negate (p : Platform) : Value → Except EvalError Value
  | .number n => .ok (.number n.negate)
  | v => .error (.notANumber (v.json p))

/-- The operators that look at both operands. Values without an order are not below, above or
level with each other. -/
def decideBinary (p : Platform) (op : BinaryOp) (left right : Value) : Bool :=
  match op with
  | .or => left.isTruthy || right.isTruthy
  | .and => left.isTruthy && right.isTruthy
  | .eq => left.looselyEqual p right
  | .notEq => !left.looselyEqual p right
  | .lt => (left.order? right).any Ordering.isLT
  | .ltEq => (left.order? right).any Ordering.isLE
  | .gt => (left.order? right).any Ordering.isGT
  | .gtEq => (left.order? right).any Ordering.isGE

end Value

/-- The answer of an operator that its left operand settles. -/
def BinaryOp.settled? (op : BinaryOp) (left : Value) : Option Bool :=
  match op with
  | .or => if left.isTruthy then some true else none
  | .and => if left.isTruthy then none else some false
  | _ => none

namespace Scope

def platform (s : Scope) : Platform := s.functions.platform

def callTarget (s : Scope) (name : Text) (args : List Value) : Except EvalError Value :=
  match s.functions.resolve name with
  | .registered f => .ok (f args)
  | .builtin b => (b.call s.platform args).mapError .function
  | .unresolved => .error (.unknownFunction name)

mutual

/-- Operands are evaluated from left to right, and only as far as they are needed. -/
def eval (s : Scope) : Expr → Except EvalError Value
  | .literal v => .ok v
  | .var name =>
    match s.var? name with
    | some v => .ok v
    | none => .error (.undefinedVariable name)
  | .ident name =>
    match s.tag? name with
    | some t => .ok (.text t)
    | none => .error (.unresolvedIdentifier name)
  | .index target key => do
    let target ← eval s target
    let key ← eval s key
    return target.member s.platform key
  | .field target name => do
    let target ← eval s target
    return target.member s.platform (.text name)
  | .call name args => do
    let args ← evalAll s args
    s.callTarget name args
  | .not operand => do
    let v ← eval s operand
    return .bool !v.isTruthy
  | .neg operand => do
    let v ← eval s operand
    v.negate s.platform
  | .binary op left right => do
    let l ← eval s left
    match op.settled? l with
    | some b => return .bool b
    | none => do
      let r ← eval s right
      return .bool (Value.decideBinary s.platform op l r)
  | .ternary condition yes no => do
    let c ← eval s condition
    if c.isTruthy then eval s yes else eval s no

def evalAll (s : Scope) : List Expr → Except EvalError (List Value)
  | [] => .ok []
  | e :: es => do
    let v ← eval s e
    let vs ← evalAll s es
    return v :: vs

end

end Scope

end Stencil
