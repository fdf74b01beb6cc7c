/- Templates: contents with the tags, variables and parts they can name, over a chain of parents. -/
import Stencil.Delimiters
import Stencil.Dict
import Stencil.Expr.Eval

namespace Stencil

/-- What one template of a chain brings along itself. -/
structure Layer where
  path : Text := []
  contents : Text := []
  tags : Dict Text := .empty
  vars : Dict Value := .empty
  parts : Dict Text := .empty
  delimiters : DelimiterSet := {}

/-- A template and the parents it stands on, nearest first, as they were when they were set. -/
structure Template where
  own : Layer := {}
  ancestors : List Layer := []

/-- The empty template with the usual delimiters. -/
instance : Inhabited Template := ⟨{}⟩

/-- The body of a part and how many layers above the template it was found. -/
structure FoundPart where
  level : Nat
  body : Text
deriving DecidableEq

/-- The part of the nearest layer that has it. -/
def findPart? (name : Text) : List Layer → Option FoundPart
  | [] => none
  | l :: ls =>
    match l.parts.get? name with
    | some body => some ⟨0, body⟩
    | none => (findPart? name ls).map fun p => { p with level := p.level + 1 }

namespace Template

def layers (t : Template) : List Layer := t.own :: t.ancestors

def tag? (t : Template) (name : Text) : Option Text := t.layers.findSome? (·.tags.get? name)

def var? (t : Template) (name : Text) : Option Value := t.layers.findSome? (·.vars.get? name)

def part? (t : Template) (name : Text) : Option FoundPart := findPart? name t.layers

/-- The part of that name above the layer at `level`. -/
def inheritedPart? (t : Template) (level : Nat) (name : Text) : Option FoundPart :=
  (findPart? name (t.layers.drop (level + 1))).map fun p =>
    { p with level := p.level + level + 1 }

def merged {α : Type} (t : Template) (field : Layer → Dict α) : Dict α :=
  t.layers.foldr (fun l d => d.overlay (field l)) .empty

/-- Every tag in sight, near ones hiding far ones. -/
def tags (t : Template) : Dict Text := t.merged Layer.tags

/-- Every variable in sight, near ones hiding far ones. -/
def vars (t : Template) : Dict Value := t.merged Layer.vars

/-- Every part in sight, near ones hiding far ones. -/
def parts (t : Template) : Dict Text := t.merged Layer.parts

theorem get?_merged {α : Type} (t : Template) (field : Layer → Dict α) (name : Text) :
    (t.merged field).get? name = t.layers.findSome? fun l => (field l).get? name := by
  unfold merged
  induction t.layers with
  | nil => rfl
  | cons l ls ih =>
    rw [List.foldr_cons, Dict.get?_overlay, ih, List.findSome?_cons]
    cases (field l).get? name <;> rfl

def scope (t : Template) (fs : Functions) : Scope := ⟨t.tag?, t.var?, fs⟩

def setPath (path : Text) (t : Template) : Template := { t with own := { t.own with path } }

def setContents (contents : Text) (t : Template) : Template :=
  { t with own := { t.own with contents } }

def setTag (name value : Text) (t : Template) : Template :=
  { t with own := { t.own with tags := t.own.tags.insert name value } }

def setVar (name : Text) (value : Value) (t : Template) : Template :=
  { t with own := { t.own with vars := t.own.vars.insert name value } }

def setPart (name body : Text) (t : Template) : Template :=
  { t with own := { t.own with parts := t.own.parts.insert name body } }

def setTags (pairs : List (Text × Text)) (t : Template) : Template :=
  pairs.foldl (fun t p => t.setTag p.1 p.2) t

def setVars (pairs : List (Text × Value)) (t : Template) : Template :=
  pairs.foldl (fun t p => t.setVar p.1 p.2) t

def setParts (pairs : List (Text × Text)) (t : Template) : Template :=
  pairs.foldl (fun t p => t.setPart p.1 p.2) t

theorem setTags_eq (pairs : List (Text × Text)) (t : Template) :
    t.setTags pairs = { t with own := { t.own with tags := t.own.tags.insertAll pairs } } := by
  induction pairs generalizing t with
  | nil => rfl
  | cons p ps ih => exact ih (t.setTag p.1 p.2)

theorem setVars_eq (pairs : List (Text × Value)) (t : Template) :
    t.setVars pairs = { t with own := { t.own with vars := t.own.vars.insertAll pairs } } := by
  induction pairs generalizing t with
  | nil => rfl
  | cons p ps ih => exact ih (t.setVar p.1 p.2)

theorem setParts_eq (pairs : List (Text × Text)) (t : Template) :
    t.setParts pairs = { t with own := { t.own with parts := t.own.parts.insertAll pairs } } := by
  induction pairs generalizing t with
  | nil => rfl
  | cons p ps ih => exact ih (t.setPart p.1 p.2)

def setDelimiters (kind : RegionKind) (d : Option Delimiters) (t : Template) : Template :=
  { t with own := { t.own with delimiters := t.own.delimiters.update kind d } }

/-- Puts the template on top of `parent` in place of the parents it had. -/
def setParent (t parent : Template) : Template :=
  { t with ancestors := parent.layers }

def clearParent (t : Template) : Template := { t with ancestors := [] }

def parent? (t : Template) : Option Template :=
  match t.ancestors with
  | [] => none
  | l :: ls => some ⟨l, ls⟩

end Template

end Stencil
