/- The usual compiler, in universal time and with doubles in their shortest notation. -/
import Stencil.Compiler
import Stencil.Function.Calendar
import Stencil.Number.Shortest

namespace Stencil

def Platform.usual : Platform where
  clock := .gregorian fun _ => 0
  doubleText := Double.text

def Functions.usual : Functions := { platform := .usual }

def Compiler.usual : Compiler := { functions := .usual }

end Stencil
