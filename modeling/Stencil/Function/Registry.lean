/- Functions registered for a compiler, which come before the built-in ones of the same name. -/
import Stencil.Dict
import Stencil.Function.Builtin

namespace Stencil

/-- The registered functions, and the platform that the built-in ones run on. -/
structure Functions where
  registered : Dict (List Value → Value) := .empty
  platform : Platform

/-- What a call by name reaches. -/
inductive CallTarget where
  | registered (f : List Value → Value)
  | builtin (b : Builtin)
  | unresolved

namespace Functions

def register (name : Text) (f : List Value → Value) (fs : Functions) : Functions :=
  { fs with registered := fs.registered.insert name f }

def resolve (fs : Functions) (name : Text) : CallTarget :=
  match fs.registered.get? name with
  | some f => .registered f
  | none =>
    match Builtin.ofName? name with
    | some b => .builtin b
    | none => .unresolved

/-- The registered names, for logs. -/
def summary (fs : Functions) : String :=
  let names := ", ".intercalate (fs.registered.names.map fun n => n.shown.string)
  "FunctionRegistry \x7b functions: [" ++ names ++ "] \x7d"

end Functions

end Stencil
