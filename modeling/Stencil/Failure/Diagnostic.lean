/- Failures as they are shown to the author of a template. -/
import Stencil.Failure.Basic
import Stencil.Failure.Excerpt

namespace Stencil

structure Diagnostic where
  kind : FailureKind
  line : Option Nat := none
  message : String
  help : Option String := none
deriving DecidableEq

def Failure.diagnostic (p : Platform) (f : Failure) : Diagnostic :=
  ⟨f.cause.kind, some f.line, f.cause.message p, f.cause.help?⟩

namespace Diagnostic

def display (d : Diagnostic) : String :=
  match d.line with
  | some n => s!"{d.kind.name} on line {n}: {d.message}"
  | none => s!"{d.kind.name}: {d.message}"

def excerpt? (d : Diagnostic) (source : Text) : Option Excerpt := d.line.bind (Excerpt.at? source)

def spaces (n : Nat) : String := Text.string (List.replicate n ' ')

/-- The lines of an excerpt, with the line number in the margin. -/
def excerptLines (e : Excerpt) (filename : String) : List String :=
  let number := toString e.line
  let margin := spaces number.length
  [s!" --> {filename}:{e.line}:{e.column}", s!"{margin} |", s!"{number} | {e.shown.string}",
    s!"{margin} | {spaces e.caret}^"]

/-- A report for the named file. Where the source has no such line, it names the file alone. -/
def report (d : Diagnostic) (source : Text) (filename : String) : String :=
  let place := match d.excerpt? source with
    | some e => excerptLines e filename
    | none => [s!" --> {filename}"]
  let help := match d.help with
    | some h => [s!"help: {h}"]
    | none => []
  "".intercalate ((s!"error: {d.kind.name}: {d.message}" :: place ++ help).map (· ++ "\n"))

end Diagnostic

end Stencil
