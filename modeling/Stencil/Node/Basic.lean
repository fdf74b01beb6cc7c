/- Templates at the level of directives. -/
import Stencil.Expr.Basic

namespace Stencil

/-- Lines count from one in the text that was parsed. A chain of conditions is a condition whose
other branch is the rest of the chain. -/
inductive Node where
  | text (t : Text) (line : Nat)
  | part (name : Expr) (body : Text) (children : List Node) (line bodyLine : Nat)
  | showPart (name : Expr) (line : Nat)
  | showParent (line : Nat)
  | conditional (test : Expr) (yes no : List Node) (line : Nat)

instance : Inhabited Node := ⟨.text [] 1⟩

/-- Induction over a list of nodes, which goes into the nodes as well. -/
@[elab_as_elim]
theorem nodesInduction {P : List Node → Prop} (nil : P [])
    (text : ∀ t line ns, P ns → P (.text t line :: ns))
    (part : ∀ name body children line bodyLine ns, P children → P ns →
      P (.part name body children line bodyLine :: ns))
    (showPart : ∀ name line ns, P ns → P (.showPart name line :: ns))
    (showParent : ∀ line ns, P ns → P (.showParent line :: ns))
    (conditional : ∀ test yes no line ns, P yes → P no → P ns →
      P (.conditional test yes no line :: ns)) (ns : List Node) : P ns :=
  Node.rec_1 (motive_1 := fun n => ∀ ns, P ns → P (n :: ns)) (motive_2 := P) text
    (fun name body children line bodyLine hchildren ns =>
      part name body children line bodyLine ns hchildren)
    showPart showParent
    (fun test yes no line hyes hno ns => conditional test yes no line ns hyes hno)
    nil (fun _ ns hn => hn ns) ns

/-- The names of directives. -/
inductive Keyword where
  | part
  | endPart
  | showPart
  | parent
  | ifThen
  | elseIf
  | otherwise
  | endIf
deriving DecidableEq

namespace Keyword

def all : List Keyword :=
  [.part, .endPart, .showPart, .parent, .ifThen, .elseIf, .otherwise, .endIf]

def spelling : Keyword → String
  | .part => "part"
  | .endPart => "endpart"
  | .showPart => "show"
  | .parent => "parent"
  | .ifThen => "if"
  | .elseIf => "elseif"
  | .otherwise => "else"
  | .endIf => "endif"

def ofName? (name : Text) : Option Keyword := all.find? fun k => k.spelling.toList == name

end Keyword

/-- A part as a directive defines it, its name not yet evaluated. -/
structure PartDefinition where
  name : Expr
  body : Text
  line : Nat
  bodyLine : Nat

mutual

/-- The parts that a node defines, in source order and in every branch. -/
def Node.definitions : Node → List PartDefinition
  | .text _ _ => []
  | .part name body _ line bodyLine => [⟨name, body, line, bodyLine⟩]
  | .showPart _ _ => []
  | .showParent _ => []
  | .conditional _ yes no _ => definitionsIn yes ++ definitionsIn no

def definitionsIn : List Node → List PartDefinition
  | [] => []
  | n :: ns => n.definitions ++ definitionsIn ns

end

theorem definitionsIn_append (ns ms : List Node) :
    definitionsIn (ns ++ ms) = definitionsIn ns ++ definitionsIn ms := by
  induction ns with
  | nil => rfl
  | cons n ns ih => rw [List.cons_append, definitionsIn, definitionsIn, ih, List.append_assoc]

end Stencil
