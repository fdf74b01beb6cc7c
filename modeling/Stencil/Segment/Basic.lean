/- The pieces of a template: text, escaped openings, directives and tags. -/
import Stencil.Delimiters

namespace Stencil

/-- A directive is cut into the white space before its name, the name and what follows it. -/
inductive Segment where
  | text (t : Text)
  | escapedOpening (opening : Text)
  | directive (opening lead name argument closing : Text)
  | tag (kind : TagKind) (opening body closing : Text)
deriving DecidableEq

namespace Segment

/-- The source text of a segment. -/
def raw : Segment → Text
  | .text t => t
  | .escapedOpening opening => '\\' :: opening
  | .directive opening lead name argument closing =>
    opening ++ (lead ++ (name ++ (argument ++ closing)))
  | .tag _ opening body closing => opening ++ (body ++ closing)

/-- The expression in the text after a directive's name, unless that is blank. -/
def expression? (argument : Text) : Option Text :=
  if argument.trim.isEmpty then none else some argument.trim

def isDirective : Segment → Bool
  | .directive .. => true
  | _ => false

/-- Whether the tag stage replaces the segment. -/
def isTagLike : Segment → Bool
  | .tag .. => true
  | .escapedOpening _ => true
  | _ => false

end Segment

/-- Source text of a run of segments. -/
def source (ss : List Segment) : Text := ss.flatMap Segment.raw

@[simp] theorem source_nil : source [] = [] := rfl

@[simp] theorem source_cons (s : Segment) (ss : List Segment) :
    source (s :: ss) = s.raw ++ source ss := rfl

theorem source_singleton (s : Segment) : source [s] = s.raw := List.append_nil s.raw

@[simp] theorem source_append (ss ts : List Segment) :
    source (ss ++ ts) = source ss ++ source ts := List.flatMap_append

end Stencil
