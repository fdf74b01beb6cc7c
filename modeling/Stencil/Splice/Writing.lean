/- The directive stage as it writes its output, statement by statement. -/
import Stencil.Node.Descent
import Stencil.Segment.Scan
import Stencil.Splice.Output
import Stencil.Splice.Parts

namespace Stencil

/-- The tokens of a text, which the loop of the lexer ends in, and the passages that they mark
off. -/
def readPassages (ds : DelimiterSet) (t : Text) : Attempt LexError (List Token × List Passage) :=
  match Scan.run ds.openers t (2 * t.byteSize + 1) {} with
  | .ended (.ok ks) => (passages? t ks).map fun ps => .ok (ks, ps)
  | .ended (.error e) => some (.error e)
  | .goesOn => none
  | .brokeOff => none

namespace Rendering

variable (r : Rendering) (write : Inclusion → Output → Attempt Failure Output)

mutual

/-- Carries out a statement of a text that stands at `origin`, in `part` if it is the body of one.
Bodies are written by `write`. -/
def writeStatement (part : Option ShownPart) (origin : Origin) :
    Statement → Output → Attempt Failure Output
  | .text t line, out => some (.ok (out.push t (origin.line line) origin.advances))
  | .part .., out => some (.ok out)
  | .showPart name line, out =>
    match r.scope.nameOf name with
    | .error e => some (.error ⟨.evaluation e, origin.line line⟩)
    | .ok name =>
      match r.shown name (origin.line line) with
      | .error cause => some (.error ⟨cause, origin.line line⟩)
      | .ok inclusion => write inclusion out
  | .showParent line, out =>
    match r.inherited (origin.line line) part with
    | .error cause => some (.error ⟨cause, origin.line line⟩)
    | .ok inclusion => write inclusion out
  | .conditional arms, out => writeArms part origin arms out

def writeStatements (part : Option ShownPart) (origin : Origin) :
    List Statement → Output → Attempt Failure Output
  | [], out => some (.ok out)
  | s :: ss, out =>
    (writeStatement part origin s out).andThen (writeStatements part origin ss)

/-- Writes the first branch that has no condition or one that holds. -/
def writeArms (part : Option ShownPart) (origin : Origin) :
    List (Arm Statement) → Output → Attempt Failure Output
  | [], out => some (.ok out)
  | ⟨none, _, children⟩ :: _, out => writeStatements part origin children out
  | ⟨some test, line, children⟩ :: arms, out =>
    match r.scope.eval test with
    | .error e => some (.error ⟨.evaluation e, origin.line line⟩)
    | .ok v =>
      if v.isTruthy then writeStatements part origin children out
      else writeArms part origin arms out

end

/-- Writes a body when `budget` bodies can still be put into each other. -/
def writeBody (r : Rendering) : Nat → Inclusion → Output → Attempt Failure Output
  | 0, i, _ => some (.error ⟨.partTooDeep i.part.name r.limit, i.line⟩)
  | budget + 1, i, out =>
    match readPassages r.template.own.delimiters i.body with
    | none => none
    | some (.error e) => some (.error (i.origin.relocate e.failure))
    | some (.ok (_, ps)) =>
      match parseStatements r.limit true ps with
      | none => none
      | some (.error f) => some (.error (i.origin.relocate f))
      | some (.ok ss) => r.writeStatements (r.writeBody budget) (some i.part) i.origin ss out

end Rendering

/-- Registers the parts of a text on the template and writes its other directives. A text without
tokens is its own output. -/
def Template.writeDirectives (t : Template) (fs : Functions) (limits : Limits) (contents : Text) :
    Option (Template × Except Failure Output) :=
  match readPassages t.own.delimiters contents with
  | none => none
  | some (.error e) => some (t, .error e.failure)
  | some (.ok ([], _)) => some (t, .ok { text := contents })
  | some (.ok (_ :: _, ps)) =>
    match parseStatements limits.directiveDepth false ps with
    | none => none
    | some (.error f) => some (t, .error f)
    | some (.ok ss) =>
      let (parts, failure) := nameParts (t.scope fs) (Statement.allDefinitions ss)
      let registered := t.register parts
      match failure with
      | some f => some (registered, .error f)
      | none =>
        let r := registered.rendering fs limits.directiveDepth parts
        (r.writeStatements (r.writeBody r.limit) none (.source 1) ss {}).map (registered, ·)

end Stencil
