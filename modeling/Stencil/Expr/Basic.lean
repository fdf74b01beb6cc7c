/- Expressions of tags and directive arguments. -/
import Stencil.Value.Basic

namespace Stencil

inductive BinaryOp where
  | or
  | and
  | eq
  | notEq
  | lt
  | ltEq
  | gt
  | gtEq
deriving DecidableEq

namespace BinaryOp

def spelling : BinaryOp → String
  | .or => "||"
  | .and => "&&"
  | .eq => "=="
  | .notEq => "!="
  | .lt => "<"
  | .ltEq => "<="
  | .gt => ">"
  | .gtEq => ">="

/-- How tightly an operator binds; operators of one strength group to the left. -/
def strength : BinaryOp → Nat
  | .or => 3
  | .and => 4
  | .eq => 5
  | .notEq => 5
  | .lt => 6
  | .ltEq => 6
  | .gt => 6
  | .gtEq => 6

end BinaryOp

inductive Expr where
  | literal (v : Value)
  | var (name : Text)
  | ident (name : Text)
  | index (target key : Expr)
  | field (target : Expr) (name : Text)
  | call (name : Text) (args : List Expr)
  | not (operand : Expr)
  | neg (operand : Expr)
  | binary (op : BinaryOp) (left right : Expr)
  | ternary (condition yes no : Expr)

instance : Inhabited Expr := ⟨.literal .null⟩

/-- A name that stands alone: three of them are literals. -/
def Expr.ofName (name : Text) : Expr :=
  if name = "true".toList then .literal (.bool true)
  else if name = "false".toList then .literal (.bool false)
  else if name = "null".toList then .literal .null
  else .ident name

end Stencil
