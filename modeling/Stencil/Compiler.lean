/- Compiling templates: directives first, then tags. -/
import Stencil.Splice.Parts
import Stencil.Splice.Tags

namespace Stencil

structure Compiler where
  functions : Functions
  escape : Escaper := .html
  limits : Limits := {}

namespace Compiler

def tagging (c : Compiler) (t : Template) : Tagging :=
  ⟨t, t.scope c.functions, c.escape, c.limits.tagDepth⟩

/-- Replaces the tags of a text and leaves its directives as they are. -/
def compileTags (c : Compiler) (t : Template) (contents : Text) : Except Failure Text :=
  (c.tagging t).run (Splice.whole contents)

/-- Carries out the directives of a text, whose parts are registered on the template, and leaves its
tags as they are. -/
def compileDirectives (c : Compiler) (t : Template) (contents : Text) :
    Template × Except Failure Text :=
  let (registered, result) := t.runDirectives c.functions c.limits contents
  (registered, result.map Splice.text)

/-- Compiles the contents of a template, whose parts are registered on it. Failures name lines of
the contents. -/
def compile (c : Compiler) (t : Template) : Template × Except Failure Text :=
  let (registered, result) := t.runDirectives c.functions c.limits t.own.contents
  match result with
  | .error f => (registered, .error f)
  | .ok s => (registered, (c.tagging registered).run s)

/-- The compiler, for logs. -/
def summary (c : Compiler) : String :=
  "Compiler \x7b functions: " ++ c.functions.summary ++ ", config: " ++ c.limits.summary ++
    ", .. \x7d"

end Compiler

end Stencil
