/- Segments parse exactly if they are trees of balanced directives, and nothing of them is lost. -/
import Stencil.Proofs.Node.Parsing
import Stencil.Proofs.Node.Trees
import Stencil.Proofs.Node.Within

namespace Stencil

theorem parseNodes_eq_ok_iff_trees {limit : Nat} {inPart : Bool} {ss : List Segment}
    {ns : List Node} : parseNodes limit inPart ss = .ok ns ↔
      ∃ ts, leavesOf ts = ss ∧ AllBalanced inPart ts ∧ depthOf ts ≤ limit ∧
        PlacedNode.nodes (placedFrom [] ts) = ns := by
  constructor
  · intro h
    obtain ⟨ps, hps, rfl⟩ := parseNodes_eq_ok_iff.mp h
    obtain ⟨ts, hleaves, hbalanced, hdepth, rfl⟩ := exists_reading_of_items hps
    exact ⟨ts, hleaves, hbalanced, hdepth, rfl⟩
  · rintro ⟨ts, rfl, hbalanced, hdepth, rfl⟩
    exact parseNodes_of_items (items_of_trees ts hbalanced hdepth)

theorem Segment.Names.unique {s : Segment} {k l : Keyword} (hk : s.Names k) (hl : s.Names l) :
    k = l := by
  obtain ⟨_, opening, lead, argument, closing⟩ := hk
  obtain ⟨x, hx⟩ := hl
  generalize hspelling : k.spelling.toList = name at hx
  cases hx
  have hname := congrArg Keyword.ofName? hspelling
  rw [Keyword.ofName?_spelling, Keyword.ofName?_spelling] at hname
  exact Option.some.inj hname

theorem Segment.Requires.names {s : Segment} {k : Keyword} {e : Expr} (h : s.Requires k e) :
    s.Names k := by
  obtain ⟨x, hx, -⟩ := h
  exact ⟨some x, hx⟩

/-- The directive of a part. -/
def Segment.OpensPart (s : Segment) : Prop := s.Names .part

theorem Segment.not_opensPart_of_names {s : Segment} {k : Keyword} (h : s.Names k)
    (hk : k ≠ .part) : ¬ s.OpensPart := fun hpart => hk (h.unique hpart)

theorem Segment.not_opensPart_of_isDirective {s : Segment} (h : s.isDirective = false) :
    ¬ s.OpensPart := by
  rintro ⟨_, _, _, _, _⟩
  cases h

mutual

theorem SegmentTree.balanced_true_iff (t : SegmentTree) :
    t.Balanced true ↔ t.Balanced false ∧ ∀ s ∈ t.leaves, ¬ s.OpensPart := by
  cases t with
  | text s =>
    simp only [SegmentTree.leaves, List.forall_mem_singleton]
    exact ⟨fun h => ⟨h, Segment.not_opensPart_of_isDirective h⟩, And.left⟩
  | showPart s name =>
    simp only [SegmentTree.leaves, List.forall_mem_singleton]
    exact ⟨fun h => ⟨h, Segment.not_opensPart_of_names h.names nofun⟩, And.left⟩
  | showParent s =>
    simp only [SegmentTree.leaves, List.forall_mem_singleton]
    refine ⟨fun h => ⟨h, ?_⟩, And.left⟩
    rcases h with hs | hs
    · exact Segment.not_opensPart_of_names ⟨_, hs⟩ nofun
    · exact Segment.not_opensPart_of_names ⟨_, hs⟩ nofun
  | part opening name inner closing =>
    refine ⟨fun h => (nomatch h.1), fun h => ?_⟩
    exact absurd h.1.2.1.names (h.2 opening List.mem_cons_self)
  | conditional opening test yes rest =>
    simp only [SegmentTree.Balanced, SegmentTree.leaves, List.forall_mem_cons,
      List.forall_mem_append, allBalanced_true_iff yes, rest.balanced_true_iff]
    constructor
    · rintro ⟨hopening, ⟨hyes, hfree⟩, hrest, hfree'⟩
      exact ⟨⟨hopening, hyes, hrest⟩, Segment.not_opensPart_of_names hopening.names nofun, hfree,
        hfree'⟩
    · rintro ⟨⟨hopening, hyes, hrest⟩, -, hfree, hfree'⟩
      exact ⟨hopening, ⟨hyes, hfree⟩, hrest, hfree'⟩

theorem BranchTree.balanced_true_iff (t : BranchTree) :
    t.Balanced true ↔ t.Balanced false ∧ ∀ s ∈ t.leaves, ¬ s.OpensPart := by
  cases t with
  | close closing =>
    simp only [BranchTree.leaves, List.forall_mem_singleton]
    exact ⟨fun h => ⟨h, Segment.not_opensPart_of_names h nofun⟩, And.left⟩
  | otherwise turn no closing =>
    simp only [BranchTree.Balanced, BranchTree.leaves, List.forall_mem_cons,
      List.forall_mem_append, allBalanced_true_iff no]
    constructor
    · rintro ⟨hturn, ⟨hno, hfree⟩, hclosing⟩
      exact ⟨⟨hturn, hno, hclosing⟩, Segment.not_opensPart_of_names hturn nofun, hfree,
        Segment.not_opensPart_of_names hclosing nofun, nofun⟩
    · rintro ⟨⟨hturn, hno, hclosing⟩, -, hfree, -⟩
      exact ⟨hturn, ⟨hno, hfree⟩, hclosing⟩
  | elseIf turn test yes rest =>
    simp only [BranchTree.Balanced, BranchTree.leaves, List.forall_mem_cons,
      List.forall_mem_append, allBalanced_true_iff yes, rest.balanced_true_iff]
    constructor
    · rintro ⟨hturn, ⟨hyes, hfree⟩, hrest, hfree'⟩
      exact ⟨⟨hturn, hyes, hrest⟩, Segment.not_opensPart_of_names hturn.names nofun, hfree, hfree'⟩
    · rintro ⟨⟨hturn, hyes, hrest⟩, -, hfree, hfree'⟩
      exact ⟨hturn, ⟨hyes, hfree⟩, hrest, hfree'⟩

theorem allBalanced_true_iff (ts : List SegmentTree) :
    AllBalanced true ts ↔ AllBalanced false ts ∧ ∀ s ∈ leavesOf ts, ¬ s.OpensPart := by
  cases ts with
  | nil => exact ⟨fun _ => ⟨trivial, nofun⟩, fun _ => trivial⟩
  | cons t ts =>
    simp only [AllBalanced, leavesOf, List.forall_mem_append, t.balanced_true_iff,
      allBalanced_true_iff ts]
    exact and_and_and_comm

end

/-- Exactly the balanced directives are accepted, and nothing is lost: the nodes come from trees
that hold every segment once and in order, and the body of a part is what stands between its
directive and the closing one. Inside a part the language is the same without parts. -/
theorem parseNodes_balanced (limit : Nat) (ss : List Segment) :
    (∀ inPart ns, parseNodes limit inPart ss = .ok ns ↔
        ∃ ts, leavesOf ts = ss ∧ AllBalanced inPart ts ∧ depthOf ts ≤ limit ∧
          PlacedNode.nodes (placedFrom [] ts) = ns) ∧
      (∀ ns, parseNodes limit true ss = .ok ns ↔
        parseNodes limit false ss = .ok ns ∧ ∀ s ∈ ss, ¬ s.OpensPart) ∧
      ∀ inPart ns, parseNodes limit inPart ss = .ok ns →
        ∀ name body children line bodyLine,
          .part name body children line bodyLine ∈ nodesWithin ns →
          ∃ σ : PartSite, ∃ inner, σ.segments = ss ∧ σ.Defines [] name body line bodyLine ∧
            leavesOf inner = σ.inner ∧ AllBalanced true inner ∧
            PlacedNode.nodes (placedFrom σ.before inner) = children := by
  refine ⟨fun inPart ns => parseNodes_eq_ok_iff_trees, fun ns => ?_, ?_⟩
  · rw [parseNodes_eq_ok_iff_trees, parseNodes_eq_ok_iff_trees]
    constructor
    · rintro ⟨ts, rfl, hbalanced, hdepth, hnodes⟩
      obtain ⟨hbalanced, hfree⟩ := (allBalanced_true_iff ts).mp hbalanced
      exact ⟨⟨ts, rfl, hbalanced, hdepth, hnodes⟩, hfree⟩
    · rintro ⟨⟨ts, rfl, hbalanced, hdepth, hnodes⟩, hfree⟩
      exact ⟨ts, rfl, (allBalanced_true_iff ts).mpr ⟨hbalanced, hfree⟩, hdepth, hnodes⟩
  · intro inPart ns hns name body children line bodyLine hpart
    obtain ⟨ps, hps, rfl⟩ := parseNodes_eq_ok_iff.mp hns
    obtain ⟨σ, hσ, hdefines, room, qs, -, hqs, rfl⟩ := hasSites_of_items hps _ _ _ _ _ hpart
    obtain ⟨inner, hleaves, hbalanced, -, rfl⟩ := exists_reading_of_items hqs
    exact ⟨σ, inner, hσ, hdefines, hleaves, hbalanced, rfl⟩

end Stencil
