/- Segments that are laid out as nodes are so wherever else they stand, with as much room. -/
import Stencil.Proofs.Node.Trees

namespace Stencil

mutual

/-- The node of a text that stands further down. -/
def Node.moved (lines : Nat) : Node → Node
  | .text t line => .text t (line + lines)
  | .part name body children line bodyLine =>
    .part name body (nodesMoved lines children) (line + lines) (bodyLine + lines)
  | .showPart name line => .showPart name (line + lines)
  | .showParent line => .showParent (line + lines)
  | .conditional test yes no line =>
    .conditional test (nodesMoved lines yes) (nodesMoved lines no) (line + lines)

def nodesMoved (lines : Nat) : List Node → List Node
  | [] => []
  | n :: ns => n.moved lines :: nodesMoved lines ns

end

theorem Text.endLine_behind (outer t : Text) :
    (outer ++ t).endLine = t.endLine + outer.newlines := by
  rw [endLine, endLine, newlines_append, Nat.add_comm outer.newlines, Nat.add_assoc]

variable {outer before : Text}

mutual

theorem SegmentTree.node_placed_behind (before : Text) (t : SegmentTree) :
    (t.placed (outer ++ before)).node = (t.placed before).node.moved outer.newlines := by
  cases t with
  | part opening name inner closing =>
    simp only [SegmentTree.placed, PlacedNode.node, Node.moved, List.append_assoc,
      Text.endLine_behind, nodes_placedFrom_behind _ inner]
  | conditional opening test yes rest =>
    simp only [SegmentTree.placed, PlacedNode.node, Node.moved, List.append_assoc,
      Text.endLine_behind, nodes_placedFrom_behind _ yes, rest.nodes_placed_behind]
  | _ =>
    simp only [SegmentTree.placed, PlacedNode.node, Node.moved, Text.endLine_behind]

theorem BranchTree.nodes_placed_behind (before : Text) (t : BranchTree) :
    PlacedNode.nodes (t.placed (outer ++ before)) =
      nodesMoved outer.newlines (PlacedNode.nodes (t.placed before)) := by
  cases t with
  | close closing => rfl
  | otherwise turn no closing =>
    simp only [BranchTree.placed, List.append_assoc, nodes_placedFrom_behind _ no]
  | elseIf turn test yes rest =>
    simp only [BranchTree.placed, PlacedNode.nodes, PlacedNode.node, nodesMoved, Node.moved,
      List.append_assoc, Text.endLine_behind, nodes_placedFrom_behind _ yes,
      rest.nodes_placed_behind]

theorem nodes_placedFrom_behind (before : Text) (ts : List SegmentTree) :
    PlacedNode.nodes (placedFrom (outer ++ before) ts) =
      nodesMoved outer.newlines (PlacedNode.nodes (placedFrom before ts)) := by
  cases ts with
  | nil => rfl
  | cons t ts =>
    simp only [placedFrom, PlacedNode.nodes, nodesMoved, List.append_assoc,
      t.node_placed_behind, nodes_placedFrom_behind _ ts]

end

/-- What is laid out behind `outer ++ before` is laid out behind `before` alone. -/
theorem Items.exists_moved {inPart : Bool} {room more : Nat} {ss : List Segment}
    {ps : List PlacedNode} (h : Items inPart room (outer ++ before) ss ps) (hroom : room ≤ more) :
    ∃ qs, Items inPart more before ss qs ∧
      PlacedNode.nodes ps = nodesMoved outer.newlines (PlacedNode.nodes qs) := by
  obtain ⟨ts, rfl, hbalanced, hdepth, rfl⟩ := exists_reading_of_items h
  exact ⟨placedFrom before ts, items_of_trees ts hbalanced (Nat.le_trans hdepth hroom),
    nodes_placedFrom_behind before ts⟩

end Stencil
