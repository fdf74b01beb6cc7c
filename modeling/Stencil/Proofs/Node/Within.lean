/- Where the parts of a template stand among its segments, however deep in conditions. -/
import Stencil.Proofs.Node.Layout

namespace Stencil

mutual

/-- The node and all nodes inside it. -/
def Node.within : Node → List Node
  | .part name body children line bodyLine =>
    .part name body children line bodyLine :: nodesWithin children
  | .conditional test yes no line =>
    .conditional test yes no line :: (nodesWithin yes ++ nodesWithin no)
  | n => [n]

def nodesWithin : List Node → List Node
  | [] => []
  | n :: ns => n.within ++ nodesWithin ns

end

theorem nodesWithin_append (ns ms : List Node) :
    nodesWithin (ns ++ ms) = nodesWithin ns ++ nodesWithin ms := by
  induction ns with
  | nil => rfl
  | cons n ns ih => rw [List.cons_append, nodesWithin, nodesWithin, ih, List.append_assoc]

/-- A part among segments: its directive and the closing one, with what stands around them. -/
structure PartSite where
  front : List Segment
  opening : Segment
  inner : List Segment
  closing : Segment
  rear : List Segment

namespace PartSite

def segments (σ : PartSite) : List Segment :=
  σ.front ++ σ.opening :: (σ.inner ++ σ.closing :: σ.rear)

/-- What stands in front of the body. -/
def before (σ : PartSite) : Text := source (σ.front ++ [σ.opening])

/-- The part that is defined here has that name and body, and the lines of its directive and its
body are those, behind `outer`. -/
structure Defines (σ : PartSite) (outer : Text) (name : Expr) (body : Text) (line bodyLine : Nat) :
    Prop where
  opening : σ.opening.Requires .part name
  closing : σ.closing.Names .endPart
  body : body = source σ.inner
  line : line = (outer ++ source σ.front).endLine
  bodyLine : bodyLine = (outer ++ σ.before).endLine

/-- The site with more around it. -/
def around (front rear : List Segment) (σ : PartSite) : PartSite :=
  { σ with front := front ++ σ.front, rear := σ.rear ++ rear }

variable {σ : PartSite} {front rear : List Segment} {outer : Text}

theorem segments_around : (σ.around front rear).segments = front ++ (σ.segments ++ rear) := by
  simp only [segments, around, List.append_assoc, List.cons_append]

theorem before_around : (σ.around front rear).before = source front ++ σ.before := by
  rw [before, around, before, List.append_assoc, source_append]

theorem Defines.around {name : Expr} {body : Text} {line bodyLine : Nat}
    (h : σ.Defines (outer ++ source front) name body line bodyLine) (rear : List Segment) :
    (σ.around front rear).Defines outer name body line bodyLine where
  opening := h.opening
  closing := h.closing
  body := h.body
  line := by
    rw [h.line, PartSite.around, source_append, List.append_assoc]
  bodyLine := by
    rw [h.bodyLine, before_around, List.append_assoc]

end PartSite

/-- Every part inside the nodes stands among the segments behind `outer`. Its body is laid out with
less room, and nothing but its children. -/
def HasSites (room : Nat) (outer : Text) (ss : List Segment) (ns : List Node) : Prop :=
  ∀ name body children line bodyLine, .part name body children line bodyLine ∈ nodesWithin ns →
    ∃ σ : PartSite, σ.segments = ss ∧ σ.Defines outer name body line bodyLine ∧
      ∃ r qs, r < room ∧ Items true r (outer ++ σ.before) σ.inner qs ∧
        PlacedNode.nodes qs = children

variable {room : Nat} {outer : Text} {ss ts : List Segment} {ns ms : List Node}

theorem HasSites.around {front : List Segment} {few : Nat} (hroom : few ≤ room)
    (h : HasSites few (outer ++ source front) ss ns) (rear : List Segment) :
    HasSites room outer (front ++ (ss ++ rear)) ns := by
  intro name body children line bodyLine hpart
  obtain ⟨σ, rfl, hdefines, r, qs, hr, hqs, hchildren⟩ := h name body children line bodyLine hpart
  refine ⟨σ.around front rear, PartSite.segments_around, hdefines.around rear, r, qs,
    Nat.lt_of_lt_of_le hr hroom, ?_, hchildren⟩
  rw [PartSite.before_around, ← List.append_assoc]
  exact hqs

theorem HasSites.behind {s : Segment} {few : Nat} (hroom : few ≤ room)
    (h : HasSites few (outer ++ s.raw) ss ns) (rear : List Segment) :
    HasSites room outer (s :: (ss ++ rear)) ns := by
  have hsites : HasSites few (outer ++ source [s]) ss ns := by rwa [source_singleton]
  exact hsites.around hroom rear

theorem hasSites_nil (room : Nat) (outer : Text) (ss : List Segment) :
    HasSites room outer ss [] := fun _ _ _ _ _ hpart => nomatch hpart

theorem HasSites.append (hss : HasSites room outer ss ns)
    (hts : HasSites room (outer ++ source ss) ts ms) :
    HasSites room outer (ss ++ ts) (ns ++ ms) := by
  intro name body children line bodyLine hpart
  rw [nodesWithin_append] at hpart
  rcases List.mem_append.mp hpart with hpart | hpart
  · have hsites : HasSites room (outer ++ source []) ss ns := by rwa [source_nil, List.append_nil]
    exact hsites.around (Nat.le_refl room) ts _ _ _ _ _ hpart
  · have hsites := hts.around (Nat.le_refl room) []
    rw [List.append_nil] at hsites
    exact hsites _ _ _ _ _ hpart

/-- A segment that is a node of its own has no part inside. -/
theorem HasSites.cons {s : Segment} {n : Node} (hn : n.within = [n])
    (hkind : ∀ name body children line bodyLine, n ≠ .part name body children line bodyLine)
    (h : HasSites room (outer ++ s.raw) ss ns) : HasSites room outer (s :: ss) (n :: ns) := by
  have hfirst : HasSites room outer [s] [n] := by
    intro name body children line bodyLine hpart
    rw [nodesWithin, nodesWithin, List.append_nil, hn] at hpart
    exact absurd (List.mem_singleton.mp hpart).symm (hkind _ _ _ _ _)
  exact hfirst.append (by rwa [source_singleton])

theorem HasSites.conditional {test : Expr} {yes no : List Node} {line : Nat}
    (hyes : HasSites room outer ss yes) (hno : HasSites room (outer ++ source ss) ts no) :
    HasSites room outer (ss ++ ts) [.conditional test yes no line] := by
  intro name body children partLine bodyLine hpart
  rw [nodesWithin, nodesWithin, List.append_nil, Node.within, ← nodesWithin_append] at hpart
  rcases List.mem_cons.mp hpart with heq | hpart
  · cases heq
  · exact hyes.append hno _ _ _ _ _ hpart

theorem hasSites_of_items {inPart : Bool} {before : Text} {ps : List PlacedNode}
    (h : Items inPart room before ss ps) : HasSites room before ss (PlacedNode.nodes ps) := by
  induction h using Items.rec
    (motive_2 := fun _ room _ _ before ss p _ => HasSites room before ss [p.node]) with
  | nil => exact hasSites_nil _ _ _
  | text _ _ ih => exact .cons rfl nofun ih
  | showPart _ _ ih => exact .cons rfl nofun ih
  | showParent _ _ _ ih => exact .cons rfl nofun ih
  | @part room before s name ss children close rest ps hs hchildren hclose _ ihchildren ih =>
    refine HasSites.append (?_ : HasSites _ _ _ [_]) ih
    intro other body inside line bodyLine hpart
    rw [nodesWithin, nodesWithin, List.append_nil, PlacedNode.node, Node.within] at hpart
    rcases List.mem_cons.mp hpart with heq | hpart
    · cases heq
      have hbefore : PartSite.before ⟨[], s, ss, close, []⟩ = s.raw := source_singleton s
      refine ⟨⟨[], s, ss, close, []⟩, rfl, ⟨hs, hclose, rfl, ?_, by rw [hbefore]⟩, room, children,
        Nat.lt_succ_self room, by rwa [hbefore], rfl⟩
      rw [source_nil, List.append_nil]
    · exact ihchildren.behind (Nat.le_succ room) [close] _ _ _ _ _ hpart
  | conditional _ _ _ ihchain ih =>
    refine HasSites.append (?_ : HasSites _ _ _ [_]) ih
    have hsites := ihchain.behind (Nat.le_succ _) []
    rwa [List.append_nil] at hsites
  | close _ _ ih => exact ih.conditional (hasSites_nil _ _ _)
  | otherwise _ _ _ _ ihyes ihno =>
    exact ihyes.conditional (ihno.behind (Nat.le_refl _) [_])
  | elseIf _ _ _ ih ihchain =>
    have hsites := ihchain.behind (Nat.le_refl _) []
    rw [List.append_nil] at hsites
    exact ih.conditional hsites

end Stencil
