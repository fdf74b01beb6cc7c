/- The layout of directives: which runs of segments are nodes, and where the nodes stand. -/
import Stencil.Node.Parser

namespace Stencil

/-- The line on which what follows a text starts. -/
def Text.endLine (t : Text) : Nat := 1 + t.newlines

theorem Text.endLine_append (s t : Text) : endLine (s ++ t) = endLine s + newlines t := by
  rw [endLine, endLine, newlines_append, Nat.add_assoc]

/-- A node that knows the text in front of it. -/
inductive PlacedNode where
  | text (t before : Text)
  | part (name : Expr) (body : Text) (children : List PlacedNode) (before bodyBefore : Text)
  | showPart (name : Expr) (before : Text)
  | showParent (before : Text)
  | conditional (test : Expr) (yes no : List PlacedNode) (before : Text)

namespace PlacedNode

mutual

def node : PlacedNode → Node
  | .text t before => .text t before.endLine
  | .part name body children before bodyBefore =>
    .part name body (nodes children) before.endLine bodyBefore.endLine
  | .showPart name before => .showPart name before.endLine
  | .showParent before => .showParent before.endLine
  | .conditional test yes no before => .conditional test (nodes yes) (nodes no) before.endLine

def nodes : List PlacedNode → List Node
  | [] => []
  | p :: ps => p.node :: nodes ps

end

/-- Induction over a list of nodes, which goes into the branches of conditions as well. -/
@[elab_as_elim]
theorem listInduction {P : List PlacedNode → Prop} (nil : P [])
    (text : ∀ t before ps, P ps → P (.text t before :: ps))
    (part : ∀ name body children before bodyBefore ps, P ps →
      P (.part name body children before bodyBefore :: ps))
    (showPart : ∀ name before ps, P ps → P (.showPart name before :: ps))
    (showParent : ∀ before ps, P ps → P (.showParent before :: ps))
    (conditional : ∀ test yes no before ps, P yes → P no → P ps →
      P (.conditional test yes no before :: ps)) (ps : List PlacedNode) : P ps :=
  PlacedNode.rec_1 (motive_1 := fun p => ∀ ps, P ps → P (p :: ps)) (motive_2 := P) text
    (fun name body children before bodyBefore _ ps => part name body children before bodyBefore ps)
    showPart showParent
    (fun test yes no before hyes hno ps => conditional test yes no before ps hyes hno)
    nil (fun _ ps hp => hp ps) ps

theorem nodes_append (ps qs : List PlacedNode) : nodes (ps ++ qs) = nodes ps ++ nodes qs := by
  induction ps with
  | nil => rfl
  | cons p ps ih => rw [List.cons_append, nodes, nodes, ih, List.cons_append]

end PlacedNode

/-- A directive of that name, with what follows the name as its expression. -/
inductive Segment.Directs (k : Keyword) : Option Text → Segment → Prop
  | mk (opening lead argument closing : Text) :
      Directs k (Segment.expression? argument)
        (.directive opening lead k.spelling.toList argument closing)

/-- A directive with the argument that it requires. -/
def Segment.Requires (k : Keyword) (e : Expr) (s : Segment) : Prop :=
  ∃ x, Segment.Directs k (some x) s ∧ Expr.parse x = .ok e

/-- A directive of that name, whatever follows it. -/
def Segment.Names (k : Keyword) (s : Segment) : Prop := ∃ x, Segment.Directs k x s

mutual

/-- The segments after `before` are these nodes. At most `room` blocks stand inside each other, and
inside a part no other part does. -/
inductive Items : Bool → Nat → Text → List Segment → List PlacedNode → Prop
  | nil {inPart room before} : Items inPart room before [] []
  | text {inPart room before s ss ps} : s.isDirective = false →
      Items inPart room (before ++ s.raw) ss ps →
      Items inPart room before (s :: ss) (.text s.raw before :: ps)
  | showPart {inPart room before s ss ps name} : s.Requires .showPart name →
      Items inPart room (before ++ s.raw) ss ps →
      Items inPart room before (s :: ss) (.showPart name before :: ps)
  | showParent {inPart room before s ss ps x} : Segment.Directs .parent x s →
      x = none ∨ x = some "()".toList →
      Items inPart room (before ++ s.raw) ss ps →
      Items inPart room before (s :: ss) (.showParent before :: ps)
  | part {room before s name ss children close rest ps} : s.Requires .part name →
      Items true room (before ++ s.raw) ss children → close.Names .endPart →
      Items false (room + 1) (before ++ source (s :: (ss ++ [close]))) rest ps →
      Items false (room + 1) before (s :: (ss ++ [close]) ++ rest)
        (.part name (source ss) children before (before ++ s.raw) :: ps)
  | conditional {inPart room before s test ss p rest ps} : s.Requires .ifThen test →
      Chain inPart room test before (before ++ s.raw) ss p →
      Items inPart (room + 1) (before ++ source (s :: ss)) rest ps →
      Items inPart (room + 1) before (s :: ss ++ rest) (p :: ps)

/-- What follows the condition of a branch, up to the end of the whole chain. The branch is part of
the condition at `first`. -/
inductive Chain : Bool → Nat → Expr → Text → Text → List Segment → PlacedNode → Prop
  | close {inPart room test first before ss yes s} : Items inPart room before ss yes →
      s.Names .endIf →
      Chain inPart room test first before (ss ++ [s]) (.conditional test yes [] first)
  | otherwise {inPart room test first before ss yes s ts no close} :
      Items inPart room before ss yes → s.Names .otherwise →
      Items inPart room (before ++ source ss ++ s.raw) ts no → close.Names .endIf →
      Chain inPart room test first before (ss ++ s :: (ts ++ [close]))
        (.conditional test yes no first)
  | elseIf {inPart room test first before ss yes s next ts p} :
      Items inPart room before ss yes → s.Requires .elseIf next →
      Chain inPart room next (before ++ source ss) (before ++ source ss ++ s.raw) ts p →
      Chain inPart room test first before (ss ++ s :: ts) (.conditional test yes [p] first)

end

end Stencil
