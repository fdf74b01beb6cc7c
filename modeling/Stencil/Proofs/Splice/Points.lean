/- The points that carrying out directives passes through. -/
import Mathlib.Logic.Relation
import Stencil.Splice.Parts

namespace Stencil

/-- The nodes still to come in a text that stands at `origin`, in `part` if it is the body of one,
when `budget` bodies can still be put into each other. -/
structure RenderPoint where
  budget : Nat
  part : Option ShownPart
  origin : Origin
  nodes : List Node

/-- A `parent` comes next, in the body of a part. -/
def RenderPoint.InheritsNext (m : RenderPoint) : Prop :=
  m.part ≠ none ∧ ∃ line ns, m.nodes = .showParent line :: ns

namespace Rendering

/-- What a point leads to: the nodes after one that was carried out, the branch that is taken, or
the body that is put in place. -/
inductive Steps (r : Rendering) : RenderPoint → RenderPoint → Prop
  | past {b part origin n ns s} : renderNode r (expand r b) part origin n = .ok s →
      Steps r ⟨b, part, origin, n :: ns⟩ ⟨b, part, origin, ns⟩
  | branch {b part origin test yes no line ns v} : r.scope.eval test = .ok v →
      Steps r ⟨b, part, origin, .conditional test yes no line :: ns⟩
        ⟨b, part, origin, if v.isTruthy then yes else no⟩
  | shown {b part origin e line ns name i nodes} : r.scope.nameOf e = .ok name →
      r.shown name (origin.line line) = .ok i →
      nodesOf r.template.own.delimiters r.limit true i.body = .ok nodes →
      Steps r ⟨b + 1, part, origin, .showPart e line :: ns⟩ ⟨b, some i.part, i.origin, nodes⟩
  | inherited {b part origin line ns i nodes} :
      r.inherited (origin.line line) part = .ok i →
      nodesOf r.template.own.delimiters r.limit true i.body = .ok nodes →
      Steps r ⟨b + 1, part, origin, .showParent line :: ns⟩ ⟨b, some i.part, i.origin, nodes⟩

abbrev Leads (r : Rendering) : RenderPoint → RenderPoint → Prop := Relation.ReflTransGen r.Steps

end Rendering

/-- Carrying out the directives of a text comes to a point. -/
def Template.Reaches (t : Template) (fs : Functions) (limits : Limits) (contents : Text)
    (m : RenderPoint) : Prop :=
  ∃ nodes parts,
    Rendering.nodesOf t.own.delimiters limits.directiveDepth false contents = .ok nodes ∧
    nameParts (t.scope fs) (definitionsIn nodes) = (parts, none) ∧
    ((t.register parts).rendering fs limits.directiveDepth parts).Leads
      ⟨limits.directiveDepth, none, .source 1, nodes⟩ m

end Stencil
