/- Nodes that were laid out in a text stand in it where they say. -/
import Stencil.Proofs.Node.Layout

namespace Stencil

variable {whole : Text} {ps qs : List PlacedNode}

/-- The nodes stand in the text behind what they say. Directives that put bodies in place stand
there as segments. -/
inductive StandIn (whole : Text) : List PlacedNode → Prop
  | nil : StandIn whole []
  | text {t before ps} : before ++ t <+: whole → StandIn whole ps →
      StandIn whole (.text t before :: ps)
  | part {name body children before bodyBefore ps} : bodyBefore ++ body <+: whole →
      StandIn whole ps → StandIn whole (.part name body children before bodyBefore :: ps)
  | showPart {name before ps s} : Segment.Requires .showPart name s → before ++ s.raw <+: whole →
      StandIn whole ps → StandIn whole (.showPart name before :: ps)
  | showParent {before ps s} : Segment.Names .parent s → before ++ s.raw <+: whole →
      StandIn whole ps → StandIn whole (.showParent before :: ps)
  | conditional {test yes no before ps} : StandIn whole yes → StandIn whole no →
      StandIn whole ps → StandIn whole (.conditional test yes no before :: ps)

theorem StandIn.append (hps : StandIn whole ps) (hqs : StandIn whole qs) :
    StandIn whole (ps ++ qs) := by
  induction hps with
  | nil => exact hqs
  | text h _ ih => exact .text h ih
  | part h _ ih => exact .part h ih
  | showPart hs h _ ih => exact .showPart hs h ih
  | showParent hs h _ ih => exact .showParent hs h ih
  | conditional hyes hno _ _ _ ih => exact .conditional hyes hno ih

theorem prefix_split {a b c : Text} (h : a ++ (b ++ c) <+: whole) :
    a ++ b <+: whole ∧ a ++ b ++ c <+: whole := by
  rw [← List.append_assoc] at h
  exact ⟨(List.prefix_append _ _).trans h, h⟩

theorem standIn_of_items {inPart : Bool} {room : Nat} {before : Text} {ss : List Segment}
    (h : Items inPart room before ss ps) : before ++ source ss <+: whole → StandIn whole ps := by
  induction h using Items.rec
    (motive_2 := fun _ _ _ _ before ss p _ => before ++ source ss <+: whole → StandIn whole [p])
    with
  | nil => exact fun _ => .nil
  | text _ _ ih =>
    intro hwhole
    exact .text (prefix_split hwhole).1 (ih (prefix_split hwhole).2)
  | showPart hs _ ih =>
    intro hwhole
    exact .showPart hs (prefix_split hwhole).1 (ih (prefix_split hwhole).2)
  | showParent hs _ _ ih =>
    intro hwhole
    exact .showParent ⟨_, hs⟩ (prefix_split hwhole).1 (ih (prefix_split hwhole).2)
  | part _ _ _ _ _ ih =>
    intro hwhole
    rw [source_append] at hwhole
    have hrest := ih (prefix_split hwhole).2
    have hbody := (prefix_split hwhole).1
    rw [source_cons, source_append] at hbody
    exact .part (prefix_split (prefix_split hbody).2).1 hrest
  | conditional _ _ _ ihchain ih =>
    intro hwhole
    rw [source_append] at hwhole
    have hrest := ih (prefix_split hwhole).2
    have hchain := ihchain (prefix_split (prefix_split hwhole).1).2
    exact hchain.append hrest
  | close _ _ ih hwhole =>
    rw [source_append] at hwhole
    exact .conditional (ih (prefix_split hwhole).1) .nil .nil
  | otherwise _ _ _ _ ihyes ihno hwhole =>
    rw [source_append, source_cons, source_append] at hwhole
    have hno := (prefix_split (prefix_split hwhole).2).2
    exact .conditional (ihyes (prefix_split hwhole).1) (ihno (prefix_split hno).1) .nil
  | elseIf _ _ _ ih ihchain hwhole =>
    rw [source_append, source_cons] at hwhole
    have hno := (prefix_split (prefix_split hwhole).2).2
    exact .conditional (ih (prefix_split hwhole).1) (ihchain hno) .nil

theorem standIn_of_segments {ds : DelimiterSet} {limit : Nat} {inPart : Bool} {t : Text}
    {ss : List Segment} (hss : segments ds t = .ok ss) (hps : Items inPart limit [] ss ps) :
    StandIn t ps := by
  refine standIn_of_items hps ?_
  rw [source_segments hss]
  exact List.prefix_rfl

/-- A part as a directive defines it, with the text in front of the directive and of the body. -/
structure PlacedDefinition where
  name : Expr
  body : Text
  before : Text
  bodyBefore : Text

def PlacedDefinition.definition (d : PlacedDefinition) : PartDefinition :=
  ⟨d.name, d.body, d.before.endLine, d.bodyBefore.endLine⟩

namespace PlacedNode

mutual

/-- The parts that a node defines, in source order and in every branch. -/
def definitions : PlacedNode → List PlacedDefinition
  | .part name body _ before bodyBefore => [⟨name, body, before, bodyBefore⟩]
  | .conditional _ yes no _ => definitionsOf yes ++ definitionsOf no
  | _ => []

def definitionsOf : List PlacedNode → List PlacedDefinition
  | [] => []
  | p :: ps => p.definitions ++ definitionsOf ps

end

theorem definitionsIn_nodes (ps : List PlacedNode) :
    definitionsIn (nodes ps) = (definitionsOf ps).map PlacedDefinition.definition := by
  induction ps using listInduction with
  | nil => rfl
  | conditional test yes no before ps hyes hno ih =>
    rw [nodes, node, definitionsIn, Node.definitions, definitionsOf, definitions, hyes, hno, ih,
      List.map_append, List.map_append]
  | text t before ps ih => exact ih
  | part name body children before bodyBefore ps ih => exact congrArg (_ :: ·) ih
  | showPart name before ps ih => exact ih
  | showParent before ps ih => exact ih

theorem standIn_definitions (h : StandIn whole ps) {d : PlacedDefinition}
    (hd : d ∈ definitionsOf ps) : d.bodyBefore ++ d.body <+: whole := by
  induction h with
  | nil => cases hd
  | text _ _ ih => exact ih hd
  | part h _ ih =>
    rcases List.mem_cons.mp hd with rfl | hd
    · exact h
    · exact ih hd
  | showPart _ _ _ ih => exact ih hd
  | showParent _ _ _ ih => exact ih hd
  | conditional _ _ _ ihyes ihno ih =>
    rcases List.mem_append.mp hd with hd | hd
    · rcases List.mem_append.mp hd with hd | hd
      · exact ihyes hd
      · exact ihno hd
    · exact ih hd

end PlacedNode

end Stencil
