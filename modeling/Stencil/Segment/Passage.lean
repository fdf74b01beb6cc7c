/- The passages of a text that its tokens mark off, put together from the spans of the tokens. -/
import Stencil.Segment.Token
import Stencil.Text.Slice

namespace Stencil

inductive Passage where
  | text (t : Text)
  | escapedOpening (raw opening : Text)
  | directive (name : Text) (expression : Option Text) (line : Nat) (raw : Text)
  | tag (kind : TagKind) (body : Text) (line offset : Nat) (raw : Text)
deriving DecidableEq

namespace Passage

/-- The source text of a passage. -/
def raw : Passage → Text
  | .text t => t
  | .escapedOpening raw _ => raw
  | .directive _ _ _ raw => raw
  | .tag _ _ _ _ raw => raw

def isText : Passage → Bool
  | .text _ => true
  | _ => false

end Passage

/-- A region whose closing has not been reached. -/
structure OpenRegion where
  kind : RegionKind
  line : Nat
  start : Nat
  name : Text := []
  expression : Option Text := none

namespace OpenRegion

/-- Whether the token stands between the delimiters of the region. -/
def holds (r : OpenRegion) (k : Token) : Bool :=
  k.kind = .expression || (k.kind = .directiveName && r.kind = .directive)

def take (t : Text) (k : Token) (r : OpenRegion) : Option OpenRegion :=
  (t.slice? k.start k.stop).map fun x =>
    if k.kind = .directiveName then { r with name := x } else { r with expression := some x.trim }

/-- The passage of a region that ends there. -/
def passage? (t : Text) (stop : Nat) (r : OpenRegion) : Option Passage :=
  (t.slice? r.start stop).map fun raw =>
    match r.kind with
    | .directive => .directive r.name r.expression r.line raw
    | .tag kind => .tag kind (r.expression.getD []) r.line r.start raw

end OpenRegion

/-- The text between two offsets, unless there is none. -/
def textBetween? (t : Text) (first last : Nat) : Option (List Passage) :=
  if first < last then (t.slice? first last).map fun u => [.text u] else some []

/-- The passages from an offset on, where a region may have been opened. -/
def passagesFrom (t : Text) : Nat → Option OpenRegion → List Token → Option (List Passage)
  | offset, none, [] => textBetween? t offset t.byteSize
  | offset, some r, [] =>
    (r.passage? t offset).bind fun p => (textBetween? t offset t.byteSize).map (p :: ·)
  | _, some r, k :: ks =>
    if r.holds k then (r.take t k).bind fun next => passagesFrom t k.stop (some next) ks
    else (r.passage? t k.stop).bind fun p => (passagesFrom t k.stop none ks).map (p :: ·)
  | offset, none, k :: ks =>
    (textBetween? t offset k.start).bind fun before =>
      match k.kind with
      | .opening kind =>
        let r : OpenRegion := { kind, line := k.line, start := k.start }
        (passagesFrom t k.stop (some r) ks).map (before ++ ·)
      | .escapedOpening =>
        (t.slice? k.start k.stop).bind fun raw =>
          (t.slice? (k.start + 1) k.stop).bind fun opening =>
            (passagesFrom t k.stop none ks).map (before ++ .escapedOpening raw opening :: ·)
      | _ => (passagesFrom t k.stop none ks).map (before ++ ·)

/-- The passages of a text. There are none if a token spans no text. -/
def passages? (t : Text) (tokens : List Token) : Option (List Passage) :=
  passagesFrom t 0 none tokens

end Stencil
