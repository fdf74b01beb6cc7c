/- Trees of segments: which directives belong together, and the nodes that they stand for. -/
import Stencil.Proofs.Node.Layout

namespace Stencil

mutual

/-- A node as it is written: the segments of its own, and what they enclose. -/
inductive SegmentTree where
  | text (s : Segment)
  | showPart (s : Segment) (name : Expr)
  | showParent (s : Segment)
  | part (opening : Segment) (name : Expr) (inner : List SegmentTree) (closing : Segment)
  | conditional (opening : Segment) (test : Expr) (yes : List SegmentTree) (rest : BranchTree)

/-- What follows the first branch of a condition. -/
inductive BranchTree where
  | close (closing : Segment)
  | otherwise (turn : Segment) (no : List SegmentTree) (closing : Segment)
  | elseIf (turn : Segment) (test : Expr) (yes : List SegmentTree) (rest : BranchTree)

end

mutual

/-- Every segment of the tree, in source order. -/
def SegmentTree.leaves : SegmentTree → List Segment
  | .text s => [s]
  | .showPart s _ => [s]
  | .showParent s => [s]
  | .part opening _ inner closing => opening :: (leavesOf inner ++ [closing])
  | .conditional opening _ yes rest => opening :: (leavesOf yes ++ rest.leaves)

def BranchTree.leaves : BranchTree → List Segment
  | .close closing => [closing]
  | .otherwise turn no closing => turn :: (leavesOf no ++ [closing])
  | .elseIf turn _ yes rest => turn :: (leavesOf yes ++ rest.leaves)

def leavesOf : List SegmentTree → List Segment
  | [] => []
  | t :: ts => t.leaves ++ leavesOf ts

end

mutual

/-- Every segment of the tree is the directive that its place asks for, with the argument that it
needs. A part has no other part inside. -/
def SegmentTree.Balanced (inPart : Bool) : SegmentTree → Prop
  | .text s => s.isDirective = false
  | .showPart s name => s.Requires .showPart name
  | .showParent s => s.Directs .parent none ∨ s.Directs .parent (some "()".toList)
  | .part opening name inner closing => inPart = false ∧ opening.Requires .part name ∧
    AllBalanced true inner ∧ closing.Names .endPart
  | .conditional opening test yes rest => opening.Requires .ifThen test ∧
    AllBalanced inPart yes ∧ rest.Balanced inPart

def BranchTree.Balanced (inPart : Bool) : BranchTree → Prop
  | .close closing => closing.Names .endIf
  | .otherwise turn no closing => turn.Names .otherwise ∧ AllBalanced inPart no ∧
    closing.Names .endIf
  | .elseIf turn test yes rest => turn.Requires .elseIf test ∧ AllBalanced inPart yes ∧
    rest.Balanced inPart

def AllBalanced (inPart : Bool) : List SegmentTree → Prop
  | [] => True
  | t :: ts => t.Balanced inPart ∧ AllBalanced inPart ts

end

mutual

/-- How many parts and conditions stand inside each other. -/
def SegmentTree.depth : SegmentTree → Nat
  | .part _ _ inner _ => depthOf inner + 1
  | .conditional _ _ yes rest => max (depthOf yes) rest.depth + 1
  | _ => 0

def BranchTree.depth : BranchTree → Nat
  | .close _ => 0
  | .otherwise _ no _ => depthOf no
  | .elseIf _ _ yes rest => max (depthOf yes) rest.depth

def depthOf : List SegmentTree → Nat
  | [] => 0
  | t :: ts => max t.depth (depthOf ts)

end

mutual

/-- The node that the tree stands for behind `before`. -/
def SegmentTree.placed (before : Text) : SegmentTree → PlacedNode
  | .text s => .text s.raw before
  | .showPart _ name => .showPart name before
  | .showParent _ => .showParent before
  | .part opening name inner _ =>
    .part name (source (leavesOf inner)) (placedFrom (before ++ opening.raw) inner) before
      (before ++ opening.raw)
  | .conditional opening test yes rest =>
    .conditional test (placedFrom (before ++ opening.raw) yes)
      (rest.placed (before ++ opening.raw ++ source (leavesOf yes))) before

/-- The branch with no condition, or the rest of the chain as one condition. -/
def BranchTree.placed (before : Text) : BranchTree → List PlacedNode
  | .close _ => []
  | .otherwise turn no _ => placedFrom (before ++ turn.raw) no
  | .elseIf turn test yes rest =>
    [.conditional test (placedFrom (before ++ turn.raw) yes)
      (rest.placed (before ++ turn.raw ++ source (leavesOf yes))) before]

def placedFrom (before : Text) : List SegmentTree → List PlacedNode
  | [] => []
  | t :: ts => t.placed before :: placedFrom (before ++ source t.leaves) ts

end

/-- The trees hold those segments and stand for those nodes behind `before`. -/
structure Reading (inPart : Bool) (room : Nat) (before : Text) (ss : List Segment)
    (ps : List PlacedNode) (ts : List SegmentTree) : Prop where
  leaves : leavesOf ts = ss
  balanced : AllBalanced inPart ts
  depth : depthOf ts ≤ room
  placed : placedFrom before ts = ps

namespace Reading

variable {inPart : Bool} {room : Nat} {before : Text} {ss : List Segment} {ps : List PlacedNode}
  {ts : List SegmentTree} {t : SegmentTree}

theorem nil : Reading inPart room before [] [] [] := ⟨rfl, trivial, Nat.zero_le room, rfl⟩

theorem cons (ht : t.Balanced inPart) (hdepth : t.depth ≤ room)
    (h : Reading inPart room (before ++ source t.leaves) ss ps ts) :
    Reading inPart room before (t.leaves ++ ss) (t.placed before :: ps) (t :: ts) where
  leaves := by rw [leavesOf, h.leaves]
  balanced := ⟨ht, h.balanced⟩
  depth := Nat.max_le.mpr ⟨hdepth, h.depth⟩
  placed := by rw [placedFrom, h.placed]

theorem cons_leaf {s : Segment} (hleaves : t.leaves = [s]) (ht : t.Balanced inPart)
    (hdepth : t.depth = 0) (h : Reading inPart room (before ++ s.raw) ss ps ts) :
    Reading inPart room before (s :: ss) (t.placed before :: ps) (t :: ts) := by
  rw [← source_singleton, ← hleaves] at h
  have hcons := h.cons ht (hdepth ▸ Nat.zero_le room)
  rwa [hleaves] at hcons

end Reading

/-- The same for what follows the condition of a branch: its nodes, and the rest of the chain. -/
structure ChainReading (inPart : Bool) (room : Nat) (test : Expr) (first before : Text)
    (ss : List Segment) (p : PlacedNode) (yes : List SegmentTree) (rest : BranchTree) : Prop where
  leaves : leavesOf yes ++ rest.leaves = ss
  balanced : AllBalanced inPart yes
  closed : rest.Balanced inPart
  depth : max (depthOf yes) rest.depth ≤ room
  placed : .conditional test (placedFrom before yes)
    (rest.placed (before ++ source (leavesOf yes))) first = p

theorem exists_reading_of_items {inPart : Bool} {room : Nat} {before : Text} {ss : List Segment}
    {ps : List PlacedNode} (h : Items inPart room before ss ps) :
    ∃ ts, Reading inPart room before ss ps ts := by
  induction h using Items.rec
    (motive_2 := fun inPart room test first before ss p _ =>
      ∃ yes rest, ChainReading inPart room test first before ss p yes rest) with
  | nil => exact ⟨[], .nil⟩
  | @text inPart room before s _ _ hs _ ih =>
    obtain ⟨ts, hts⟩ := ih
    exact ⟨_, hts.cons_leaf (t := .text s) rfl hs rfl⟩
  | @showPart inPart room before s _ _ name hs _ ih =>
    obtain ⟨ts, hts⟩ := ih
    exact ⟨_, hts.cons_leaf (t := .showPart s name) rfl hs rfl⟩
  | @showParent inPart room before s _ _ x hs hx _ ih =>
    obtain ⟨ts, hts⟩ := ih
    have hparent : s.Directs .parent none ∨ s.Directs .parent (some "()".toList) := by
      rcases hx with rfl | rfl
      · exact .inl hs
      · exact .inr hs
    exact ⟨_, hts.cons_leaf (t := .showParent s) rfl hparent rfl⟩
  | @part room before s name ss children close rest ps hs _ hclose _ ihchildren ih =>
    obtain ⟨inner, rfl, hinner, hdepth, rfl⟩ := ihchildren
    obtain ⟨ts, hts⟩ := ih
    have hpart : (SegmentTree.part s name inner close).Balanced false :=
      ⟨rfl, hs, hinner, hclose⟩
    exact ⟨_, .cons hpart (Nat.succ_le_succ hdepth) hts⟩
  | @conditional inPart room before s test ss p rest ps hs _ _ ihchain ih =>
    obtain ⟨yes, chain, rfl, hyes, hchain, hdepth, rfl⟩ := ihchain
    obtain ⟨ts, hts⟩ := ih
    have hbranches : (SegmentTree.conditional s test yes chain).Balanced inPart :=
      ⟨hs, hyes, hchain⟩
    exact ⟨_, .cons hbranches (Nat.succ_le_succ hdepth) hts⟩
  | @close _ _ _ _ _ _ _ s _ hs ih =>
    obtain ⟨yes, rfl, hyes, hdepth, rfl⟩ := ih
    exact ⟨yes, .close s, rfl, hyes, hs, Nat.max_le.mpr ⟨hdepth, Nat.zero_le _⟩, rfl⟩
  | @otherwise _ _ _ _ _ _ _ s _ _ close _ hs _ hclose ihyes ihno =>
    obtain ⟨yes, rfl, hyes, hdepth, rfl⟩ := ihyes
    obtain ⟨no, rfl, hno, hdno, rfl⟩ := ihno
    exact ⟨yes, .otherwise s no close, rfl, hyes, ⟨hs, hno, hclose⟩,
      Nat.max_le.mpr ⟨hdepth, hdno⟩, rfl⟩
  | @elseIf _ _ _ _ _ _ _ s next _ _ _ hs _ ih ihchain =>
    obtain ⟨yes, rfl, hyes, hdepth, rfl⟩ := ih
    obtain ⟨yes', rest, rfl, hyes', hrest, hdrest, rfl⟩ := ihchain
    exact ⟨yes, .elseIf s next yes' rest, rfl, hyes, ⟨hs, hyes', hrest⟩,
      Nat.max_le.mpr ⟨hdepth, hdrest⟩, rfl⟩

mutual

theorem SegmentTree.items {inPart : Bool} {room : Nat} {before : Text} (t : SegmentTree)
    {ss : List Segment} {ps : List PlacedNode} (hbalanced : t.Balanced inPart)
    (hdepth : t.depth ≤ room) (hrest : Items inPart room (before ++ source t.leaves) ss ps) :
    Items inPart room before (t.leaves ++ ss) (t.placed before :: ps) := by
  cases t with
  | text s =>
    rw [SegmentTree.leaves, source_singleton] at hrest
    exact .text hbalanced hrest
  | showPart s name =>
    rw [SegmentTree.leaves, source_singleton] at hrest
    exact .showPart hbalanced hrest
  | showParent s =>
    rw [SegmentTree.leaves, source_singleton] at hrest
    rcases hbalanced with hs | hs
    · exact .showParent hs (.inl rfl) hrest
    · exact .showParent hs (.inr rfl) hrest
  | part opening name inner closing =>
    obtain ⟨rfl, hopening, hinner, hclosing⟩ := hbalanced
    cases room with
    | zero => cases hdepth
    | succ room =>
      have hless : depthOf inner ≤ room := Nat.le_of_succ_le_succ hdepth
      exact .part hopening (items_of_trees inner hinner hless) hclosing hrest
  | conditional opening test yes rest =>
    obtain ⟨hopening, hyes, hchain⟩ := hbalanced
    cases room with
    | zero => cases hdepth
    | succ room =>
      obtain ⟨hdyes, hdrest⟩ := Nat.max_le.mp (Nat.le_of_succ_le_succ hdepth)
      exact .conditional hopening (rest.chain (items_of_trees yes hyes hdyes) hchain hdrest) hrest

theorem BranchTree.chain {inPart : Bool} {room : Nat} {first before : Text} (t : BranchTree)
    {test : Expr} {ss : List Segment} {yes : List PlacedNode}
    (hyes : Items inPart room before ss yes) (hbalanced : t.Balanced inPart)
    (hdepth : t.depth ≤ room) :
    Chain inPart room test first before (ss ++ t.leaves)
      (.conditional test yes (t.placed (before ++ source ss)) first) := by
  cases t with
  | close closing => exact .close hyes hbalanced
  | otherwise turn no closing =>
    obtain ⟨hturn, hno, hclosing⟩ := hbalanced
    exact .otherwise hyes hturn (items_of_trees no hno hdepth) hclosing
  | elseIf turn test yes rest =>
    obtain ⟨hturn, hyes', hrest⟩ := hbalanced
    obtain ⟨hdyes, hdrest⟩ := Nat.max_le.mp hdepth
    exact .elseIf hyes hturn (rest.chain (items_of_trees yes hyes' hdyes) hrest hdrest)

theorem items_of_trees {inPart : Bool} {room : Nat} {before : Text} (ts : List SegmentTree)
    (hbalanced : AllBalanced inPart ts) (hdepth : depthOf ts ≤ room) :
    Items inPart room before (leavesOf ts) (placedFrom before ts) := by
  cases ts with
  | nil => exact .nil
  | cons t ts =>
    obtain ⟨ht, hts⟩ := hbalanced
    obtain ⟨hdt, hdts⟩ := Nat.max_le.mp hdepth
    exact t.items ht hdt (items_of_trees ts hts hdts)

end

end Stencil
