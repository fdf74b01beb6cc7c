/- The directives that nodes begin with, in the text that the nodes were laid out in. -/
import Stencil.Proofs.Node.Placement

namespace Stencil

namespace PlacedNode

/-- What stands in the text in front of the node. -/
def before : PlacedNode → Text
  | .text _ before => before
  | .part _ _ _ before _ => before
  | .showPart _ before => before
  | .showParent before => before
  | .conditional _ _ _ before => before

/-- The nodes of the branches of a condition. -/
def branches : PlacedNode → List (List PlacedNode)
  | .conditional _ yes no _ => [yes, no]
  | _ => []

end PlacedNode

/-- The node begins with the segment. A condition may be a later one of a chain. -/
def Segment.Begins (s : Segment) : PlacedNode → Prop
  | .text t _ => s.raw = t
  | .part name _ _ _ _ => s.Requires .part name
  | .showPart name _ => s.Requires .showPart name
  | .showParent _ => s.Names .parent
  | .conditional test _ _ _ => s.Requires .ifThen test ∨ s.Requires .elseIf test

/-- All nodes begin in the text where they say, those in the branches as well. -/
inductive BeginIn (whole : Text) : List PlacedNode → Prop
  | nil : BeginIn whole []
  | cons {p ps} {s : Segment} : s.Begins p → p.before ++ s.raw <+: whole →
      (∀ qs ∈ p.branches, BeginIn whole qs) → BeginIn whole ps → BeginIn whole (p :: ps)

variable {whole : Text} {p : PlacedNode} {ps qs : List PlacedNode}

theorem BeginIn.exists_head (h : BeginIn whole (p :: ps)) :
    ∃ s : Segment, s.Begins p ∧ p.before ++ s.raw <+: whole := by
  cases h with
  | cons hs hwhole => exact ⟨_, hs, hwhole⟩

theorem BeginIn.branch (h : BeginIn whole (p :: ps)) (hqs : qs ∈ p.branches) :
    BeginIn whole qs := by
  cases h with
  | cons _ _ hbranches => exact hbranches qs hqs

theorem BeginIn.tail (h : BeginIn whole (p :: ps)) : BeginIn whole ps := by
  cases h with
  | cons _ _ _ hps => exact hps

/-- The branch that a condition takes. -/
theorem BeginIn.taken {test : Expr} {yes no : List PlacedNode} {before : Text} {v : Bool}
    (h : BeginIn whole (.conditional test yes no before :: ps)) :
    BeginIn whole (if v then yes else no) := by
  cases v with
  | true => exact h.branch List.mem_cons_self
  | false => exact h.branch (List.mem_cons_of_mem _ List.mem_cons_self)

theorem BeginIn.append (hps : BeginIn whole ps) (hqs : BeginIn whole qs) :
    BeginIn whole (ps ++ qs) := by
  induction hps with
  | nil => exact hqs
  | cons hs hwhole hbranches _ _ ih => exact .cons hs hwhole hbranches ih

/-- A condition whose first branch is asked for at `first`. -/
theorem BeginIn.conditional {test : Expr} {yes no : List PlacedNode} {first : Text} {s : Segment}
    (hs : s.Requires .ifThen test ∨ s.Requires .elseIf test) (hwhole : first ++ s.raw <+: whole)
    (hyes : BeginIn whole yes) (hno : BeginIn whole no) :
    BeginIn whole [.conditional test yes no first] := by
  refine .cons hs hwhole ?_ .nil
  intro qs hqs
  rcases List.mem_cons.mp hqs with rfl | hqs
  · exact hyes
  · rw [List.mem_singleton.mp hqs]
    exact hno

-- A chain does not hold the directive of its first condition, which is left to a hypothesis.
theorem beginIn_of_items {inPart : Bool} {room : Nat} {before : Text} {ss : List Segment}
    (h : Items inPart room before ss ps) : before ++ source ss <+: whole → BeginIn whole ps := by
  induction h using Items.rec
    (motive_2 := fun _ _ test first before ss p _ => ∀ s : Segment,
      s.Requires .ifThen test ∨ s.Requires .elseIf test → first ++ s.raw <+: whole →
      before ++ source ss <+: whole → BeginIn whole [p]) with
  | nil => exact fun _ => .nil
  | text _ _ ih =>
    intro hwhole
    exact .cons rfl (prefix_split hwhole).1 nofun (ih (prefix_split hwhole).2)
  | showPart hs _ ih =>
    intro hwhole
    exact .cons hs (prefix_split hwhole).1 nofun (ih (prefix_split hwhole).2)
  | showParent hs _ _ ih =>
    intro hwhole
    exact .cons ⟨_, hs⟩ (prefix_split hwhole).1 nofun (ih (prefix_split hwhole).2)
  | part hs _ _ _ _ ih =>
    intro hwhole
    rw [source_append] at hwhole
    have hrest := ih (prefix_split hwhole).2
    have hblock := (prefix_split hwhole).1
    rw [source_cons] at hblock
    exact .cons hs (prefix_split hblock).1 nofun hrest
  | conditional hs _ _ ihchain ih =>
    intro hwhole
    rw [source_append] at hwhole
    have hrest := ih (prefix_split hwhole).2
    have hblock := prefix_split (prefix_split hwhole).1
    exact (ihchain _ (.inl hs) hblock.1 hblock.2).append hrest
  | close _ _ ih s hs hfirst hwhole =>
    rw [source_append] at hwhole
    exact .conditional hs hfirst (ih (prefix_split hwhole).1) .nil
  | otherwise _ _ _ _ ihyes ihno s hs hfirst hwhole =>
    rw [source_append, source_cons, source_append] at hwhole
    have hno := (prefix_split (prefix_split hwhole).2).2
    exact .conditional hs hfirst (ihyes (prefix_split hwhole).1) (ihno (prefix_split hno).1)
  | elseIf _ hnext _ ih ihchain s hs hfirst hwhole =>
    rw [source_append, source_cons] at hwhole
    have hblock := prefix_split (prefix_split hwhole).2
    have hno := ihchain _ (.inr hnext) hblock.1 hblock.2
    exact .conditional hs hfirst (ih (prefix_split hwhole).1) hno

theorem beginIn_of_segments {ds : DelimiterSet} {limit : Nat} {inPart : Bool} {t : Text}
    {ss : List Segment} (hss : segments ds t = .ok ss) (hps : Items inPart limit [] ss ps) :
    BeginIn t ps := by
  refine beginIn_of_items hps ?_
  rw [source_segments hss]
  exact List.prefix_rfl

/-- The definitions of parts begin where they say. -/
theorem BeginIn.exists_definition (h : BeginIn whole ps) {d : PlacedDefinition}
    (hd : d ∈ PlacedNode.definitionsOf ps) :
    ∃ s : Segment, s.Requires .part d.name ∧ d.before ++ s.raw <+: whole := by
  induction ps using PlacedNode.listInduction with
  | nil => cases hd
  | text t before ps ih => exact ih h.tail hd
  | part name body children before bodyBefore ps ih =>
    rcases List.mem_cons.mp hd with rfl | hd
    · exact h.exists_head
    · exact ih h.tail hd
  | showPart name before ps ih => exact ih h.tail hd
  | showParent before ps ih => exact ih h.tail hd
  | conditional test yes no before ps hyes hno ih =>
    rcases List.mem_append.mp hd with hd | hd
    · rcases List.mem_append.mp hd with hd | hd
      · exact hyes (h.branch List.mem_cons_self) hd
      · exact hno (h.branch (List.mem_cons_of_mem _ List.mem_cons_self)) hd
    · exact ih h.tail hd

end Stencil
