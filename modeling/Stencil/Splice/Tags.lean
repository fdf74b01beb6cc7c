/- Replacing tags by their values, which may hold tags themselves. -/
import Stencil.Escape
import Stencil.Expr.Parser
import Stencil.Limits
import Stencil.Segment.Lexer
import Stencil.Splice.Basic
import Stencil.Template

namespace Stencil

/-- Whether an opening of a tag stands anywhere in the text. -/
def includesTagOpening (ds : DelimiterSet) (t : Text) : Bool :=
  [TagKind.sanitized, .unsanitized].any fun kind =>
    match ds.opener? (.tag kind) with
    | some o => t.includes o.opening
    | none => false

/-- The segments of a text that holds a tag or an escaped opening. A text that cannot be cut into
segments holds neither. -/
def taggedSegments? (ds : DelimiterSet) (t : Text) : Option (List Segment) :=
  if includesTagOpening ds t then
    match segments ds t with
    | .ok ss => if ss.any Segment.isTagLike then some ss else none
    | .error _ => none
  else none

def containsTag (ds : DelimiterSet) (t : Text) : Bool := (taggedSegments? ds t).isSome

/-- What stays the same while tags are replaced. -/
structure Tagging where
  template : Template
  scope : Scope
  escape : Escaper
  limit : Nat

namespace Tagging

/-- The value of a trimmed tag body: the tag of that name, or else the value of the expression. -/
def valueOf (g : Tagging) (body : Text) : Except Cause Text :=
  match g.template.tag? body with
  | some v => .ok v
  | none =>
    match Expr.parse body with
    | .error e => .error (.badExpression body e)
    | .ok e =>
      match g.scope.eval e with
      | .error e => .error (.evaluation e)
      | .ok v => .ok (v.render g.scope.platform)

def insert (g : Tagging) (kind : TagKind) (value : Text) : Text :=
  match kind with
  | .sanitized => g.escape value
  | .unsanitized => value

/-- What replaces a segment. Values that hold tags are completed by `complete`, which is told the
body that they came from. -/
def replace (g : Tagging) (complete : Text → List Segment → Except Cause Text) :
    Segment → Except Cause Text
  | .text t => .ok t
  | .escapedOpening opening => .ok opening
  | .directive opening lead name argument closing =>
    .ok (Segment.directive opening lead name argument closing).raw
  | .tag kind _ body _ =>
    match g.valueOf body.trim with
    | .error cause => .error cause
    | .ok value =>
      match taggedSegments? g.template.own.delimiters value with
      | none => .ok (g.insert kind value)
      | some ss => (complete body.trim ss).map (g.insert kind)

def replaceAll (g : Tagging) (complete : Text → List Segment → Except Cause Text) :
    List Segment → Except Cause Text
  | [] => .ok []
  | s :: ss =>
    match g.replace complete s with
    | .error cause => .error cause
    | .ok first =>
      match replaceAll g complete ss with
      | .error cause => .error cause
      | .ok rest => .ok (first ++ rest)

/-- Completes the value of a tag when `budget` values can still be completed inside each other. -/
def complete (g : Tagging) : Nat → Text → List Segment → Except Cause Text
  | 0, body, _ => .error (.tagTooDeep body g.limit)
  | budget + 1, _, ss => g.replaceAll (complete g budget) ss

/-- Replaces the tags of a splice from character `position` on. A fault anywhere in the value of a
tag is reported on the line of the tag. -/
def replaceFrom (g : Tagging) (s : Splice) : Nat → List Segment → Except Failure Text
  | _, [] => .ok []
  | position, segment :: rest =>
    match g.replace (g.complete g.limit) segment with
    | .error cause => .error ⟨cause, s.lineAt position⟩
    | .ok first =>
      match replaceFrom g s (position + segment.raw.length) rest with
      | .error f => .error f
      | .ok text => .ok (first ++ text)

def run (g : Tagging) (s : Splice) : Except Failure Text :=
  match segments g.template.own.delimiters s.text with
  | .error e => .error ⟨.lexical e, s.sourceLine e.line⟩
  | .ok ss => g.replaceFrom s 0 ss

end Tagging

end Stencil
