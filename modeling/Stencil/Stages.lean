/- The two stages of the compiler as they run on outputs, passages and byte offsets. -/
import Stencil.Compiler
import Stencil.Splice.Writing

namespace Stencil

namespace Tagging

/-- The value of a trimmed tag body, whose expression is parsed by recursive descent. -/
def resolveAt (g : Tagging) (body : Text) (line : Nat) : Attempt Failure Text :=
  match g.template.tag? body with
  | some v => some (.ok v)
  | none =>
    (Expr.descend body).map fun
      | .error e => .error ⟨.badExpression body e, line⟩
      | .ok e =>
        match g.scope.eval e with
        | .error e => .error ⟨.evaluation e, line⟩
        | .ok v => .ok (v.render g.scope.platform)

/-- What replaces a tag. A value that holds tags is completed by `complete`, and what is wrong with
it is reported on the line of the tag. -/
def replaceTag (g : Tagging) (complete : Text → Nat → Text → Attempt Failure Text) (kind : TagKind)
    (body : Text) (line : Nat) : Attempt Failure Text :=
  (g.resolveAt body line).andThen fun value =>
    if containsTag g.template.own.delimiters value then
      (complete body line value).map fun r => (r.map (g.insert kind)).mapError ({ · with line })
    else some (.ok (g.insert kind value))

/-- What a passage of `contents` comes to. Its line is looked up in a map if there is one. -/
def replacePassage (g : Tagging) (complete : Text → Nat → Text → Attempt Failure Text)
    (lines : Option LineMap) (contents : Text) : Passage → Attempt Failure Text
  | .text t => some (.ok t)
  | .escapedOpening _ opening => some (.ok opening)
  | .directive _ _ _ raw => some (.ok raw)
  | .tag kind body line offset _ =>
    g.replaceTag complete kind body ((lines.map (·.lineAt contents offset)).getD line)

def replacePassages (g : Tagging) (complete : Text → Nat → Text → Attempt Failure Text)
    (lines : Option LineMap) (contents : Text) : List Passage → Attempt Failure Text
  | [] => some (.ok [])
  | p :: ps =>
    (g.replacePassage complete lines contents p).andThen fun first =>
      (replacePassages g complete lines contents ps).map fun r => r.map (first ++ ·)

/-- Replaces the tags of a text. A text without tokens stays as it is. -/
def replaceText (g : Tagging) (complete : Text → Nat → Text → Attempt Failure Text)
    (lines : Option LineMap) (contents : Text) : Attempt Failure Text :=
  match readPassages g.template.own.delimiters contents with
  | none => none
  | some (.error e) =>
    some (.error ⟨.lexical e, (lines.map (·.sourceLine contents e.line)).getD e.line⟩)
  | some (.ok ([], _)) => some (.ok contents)
  | some (.ok (_ :: _, ps)) => g.replacePassages complete lines contents ps

/-- Completes the value of a tag when `budget` values can still be completed inside each other. -/
def completeText (g : Tagging) : Nat → Text → Nat → Text → Attempt Failure Text
  | 0, body, line, _ => some (.error ⟨.tagTooDeep body g.limit, line⟩)
  | budget + 1, _, _, value => g.replaceText (g.completeText budget) none value

end Tagging

namespace Compiler

/-- Replaces the tags of a text, on the lines that its tokens have. -/
def replaceTags (c : Compiler) (t : Template) (contents : Text) : Attempt Failure Text :=
  let g := c.tagging t
  g.replaceText (g.completeText g.limit) none contents

/-- Writes the directives of a text. -/
def writeDirectives (c : Compiler) (t : Template) (contents : Text) :
    Option (Template × Except Failure Text) :=
  (t.writeDirectives c.functions c.limits contents).map fun (registered, result) =>
    (registered, result.map Output.text)

/-- Writes the directives of the contents and replaces the tags of the output, on the lines of its
map. -/
def runStages (c : Compiler) (t : Template) : Option (Template × Except Failure Text) :=
  (t.writeDirectives c.functions c.limits t.own.contents).bind fun
    | (registered, .error f) => some (registered, .error f)
    | (registered, .ok out) =>
      let g := c.tagging registered
      (g.replaceText (g.completeText g.limit) (some out.lines) out.text).map (registered, ·)

end Compiler

end Stencil
