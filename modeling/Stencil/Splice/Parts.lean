/- Registering the parts that a template defines, and putting shown parts in place. -/
import Stencil.Limits
import Stencil.Node.Parser
import Stencil.Splice.Basic
import Stencil.Template

namespace Stencil

/-- The name that the argument of a directive evaluates to. -/
def Scope.nameOf (s : Scope) (e : Expr) : Except EvalError Text :=
  (s.eval e).map (Value.render s.platform)

structure NamedPart where
  name : Text
  body : Text
  bodyLine : Nat
deriving DecidableEq

/-- Evaluates the names of parts in order, up to the first that has none. -/
def nameParts (s : Scope) : List PartDefinition → List NamedPart × Option Failure
  | [] => ([], none)
  | d :: ds =>
    match s.nameOf d.name with
    | .error e => ([], some ⟨.evaluation e, d.line⟩)
    | .ok name =>
      let (named, failure) := nameParts s ds
      (⟨name, d.body, d.bodyLine⟩ :: named, failure)

/-- A part while it is shown: its name, and how many layers up the body was found. -/
structure ShownPart where
  name : Text
  level : Nat
deriving DecidableEq

/-- A body to put in place of a directive on source line `line`. -/
structure Inclusion where
  part : ShownPart
  body : Text
  origin : Origin
  line : Nat

/-- What stays the same while directives are carried out. `bodyLines` are the lines where the bodies
of the parts in the source start. -/
structure Rendering where
  template : Template
  scope : Scope
  bodyLines : Dict Nat
  limit : Nat

namespace Rendering

/-- Where a part found at `level` stands in the source, if a directive on `line` shows it. Only the
parts that the source defines have lines of their own. -/
def originOf (r : Rendering) (name : Text) (level line : Nat) : Origin :=
  match r.bodyLines.get? name with
  | some first => if level = 0 then .source first else .fixed line
  | none => .fixed line

def shown (r : Rendering) (name : Text) (line : Nat) : Except Cause Inclusion :=
  match r.template.part? name with
  | none => .error (.undefinedPart name)
  | some p => .ok ⟨⟨name, p.level⟩, p.body, r.originOf name p.level line, line⟩

def inherited (r : Rendering) (line : Nat) : Option ShownPart → Except Cause Inclusion
  | none => .error .parentOutsidePart
  | some part =>
    match r.template.inheritedPart? part.level part.name with
    | none => .error (.noInheritedPart part.name)
    | some p => .ok ⟨⟨part.name, p.level⟩, p.body, .fixed line, line⟩

mutual

/-- Carries out a node of a text that stands at `origin`, in `part` if it is the body of one. Bodies
are put in place by `expand`. -/
def renderNode (r : Rendering) (expand : Inclusion → Except Failure Splice)
    (part : Option ShownPart) (origin : Origin) : Node → Except Failure Splice
  | .text t line => .ok [⟨t, origin.line line, origin.advances⟩]
  | .part .. => .ok []
  | .showPart name line =>
    match r.scope.nameOf name with
    | .error e => .error ⟨.evaluation e, origin.line line⟩
    | .ok name =>
      match r.shown name (origin.line line) with
      | .error cause => .error ⟨cause, origin.line line⟩
      | .ok inclusion => expand inclusion
  | .showParent line =>
    match r.inherited (origin.line line) part with
    | .error cause => .error ⟨cause, origin.line line⟩
    | .ok inclusion => expand inclusion
  | .conditional test yes no line =>
    match r.scope.eval test with
    | .error e => .error ⟨.evaluation e, origin.line line⟩
    | .ok v =>
      if v.isTruthy then renderNodes r expand part origin yes
      else renderNodes r expand part origin no

def renderNodes (r : Rendering) (expand : Inclusion → Except Failure Splice)
    (part : Option ShownPart) (origin : Origin) : List Node → Except Failure Splice
  | [] => .ok []
  | n :: ns =>
    match renderNode r expand part origin n with
    | .error f => .error f
    | .ok first =>
      match renderNodes r expand part origin ns with
      | .error f => .error f
      | .ok rest => .ok (first ++ rest)

end

/-- The nodes of a template, or of the body of a part. -/
def nodesOf (delimiters : DelimiterSet) (limit : Nat) (inPart : Bool) (t : Text) :
    Except Failure (List Node) :=
  match segments delimiters t with
  | .error e => .error e.failure
  | .ok ss => parseNodes limit inPart ss

/-- Puts a body in place when `budget` bodies can still be put into each other. -/
def expand (r : Rendering) : Nat → Inclusion → Except Failure Splice
  | 0, i => .error ⟨.partTooDeep i.part.name r.limit, i.line⟩
  | budget + 1, i =>
    match nodesOf r.template.own.delimiters r.limit true i.body with
    | .error f => .error (i.origin.relocate f)
    | .ok nodes => renderNodes r (expand r budget) (some i.part) i.origin nodes

def render (r : Rendering) (nodes : List Node) : Except Failure Splice :=
  renderNodes r (expand r r.limit) none (.source 1) nodes

end Rendering

namespace Template

def register (parts : List NamedPart) (t : Template) : Template :=
  t.setParts (parts.map fun p => (p.name, p.body))

/-- The rendering of a template whose parts are registered. -/
def rendering (t : Template) (fs : Functions) (limit : Nat) (parts : List NamedPart) : Rendering :=
  ⟨t, t.scope fs, Dict.ofList (parts.map fun p => (p.name, p.bodyLine)), limit⟩

/-- Registers the parts of a text on the template and carries out its other directives. Parts that
were named stay registered whatever fails after them. -/
def runDirectives (t : Template) (fs : Functions) (limits : Limits) (contents : Text) :
    Template × Except Failure Splice :=
  match Rendering.nodesOf t.own.delimiters limits.directiveDepth false contents with
  | .error f => (t, .error f)
  | .ok nodes =>
    let (parts, failure) := nameParts (t.scope fs) (definitionsIn nodes)
    let registered := t.register parts
    match failure with
    | some f => (registered, .error f)
    | none => (registered, (registered.rendering fs limits.directiveDepth parts).render nodes)

end Template

end Stencil
