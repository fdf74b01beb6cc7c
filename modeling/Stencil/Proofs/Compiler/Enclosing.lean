/- How many directives are around a point of a rendering. Conditions are counted while a text is
parsed, and shown bodies while it is rendered; each count keeps to the limit, but not their sum. -/
import Mathlib.Algebra.Order.BigOperators.Group.List
import Mathlib.Tactic.Ring
import Stencil.Proofs.Node.Unambiguous
import Stencil.Proofs.Splice.Nesting
import Stencil.Usual

namespace Stencil

/-- The branch of a condition that is taken, if any, and the text in front of it. All the branches
of a chain belong to the same directive. -/
inductive Scope.Picks (s : Scope) : Expr → List SegmentTree → BranchTree → Text →
    List SegmentTree → Text → Prop
  | yes {test yes rest before v} : s.eval test = .ok v → v.isTruthy = true →
      Picks s test yes rest before yes before
  | otherwise {test yes turn no closing before v} : s.eval test = .ok v → v.isTruthy = false →
      Picks s test yes (.otherwise turn no closing) before no
        (before ++ source (leavesOf yes) ++ turn.raw)
  | elseIf {test yes turn next yes' rest before v branch behind} : s.eval test = .ok v →
      v.isTruthy = false →
      Picks s next yes' rest (before ++ source (leavesOf yes) ++ turn.raw) branch behind →
      Picks s test yes (.elseIf turn next yes' rest) before branch behind

/-- The trees that are still to come in a text, behind `before`. -/
structure TreePoint where
  part : Option ShownPart
  origin : Origin
  before : Text
  trees : List SegmentTree

def TreePoint.nodes (p : TreePoint) : List Node := PlacedNode.nodes (placedFrom p.before p.trees)

namespace Rendering

/-- The points of a rendering that succeeds. For each text that the point stands in, innermost
first, it is known how many of its conditions are around the point; the bodies among these texts
were put in place by a `show` or a `parent` each. -/
inductive Encloses (r : Rendering) (contents : List SegmentTree) : List Nat → TreePoint → Prop
  | start : Encloses r contents [0] ⟨none, .source 1, [], contents⟩
  | past {counts part origin before t ts} :
      Encloses r contents counts ⟨part, origin, before, t :: ts⟩ →
      Encloses r contents counts ⟨part, origin, before ++ source t.leaves, ts⟩
  | branch {n counts part origin before opening test yes rest ts branch behind} :
      Encloses r contents (n :: counts)
        ⟨part, origin, before, .conditional opening test yes rest :: ts⟩ →
      r.scope.Picks test yes rest (before ++ opening.raw) branch behind →
      Encloses r contents ((n + 1) :: counts) ⟨part, origin, behind, branch⟩
  | body {counts p budget i inner} : Encloses r contents counts p →
      r.Brings ⟨budget, p.part, p.origin, p.nodes⟩ i →
      segments r.template.own.delimiters i.body = .ok (leavesOf inner) → AllBalanced true inner →
      Encloses r contents (0 :: counts) ⟨some i.part, i.origin, [], inner⟩

variable {r : Rendering} {put : Inclusion → Except Failure Splice} {part : Option ShownPart}
  {origin : Origin} {s : Splice}

/-- A condition that can be carried out has its branch carried out. -/
theorem renderNodes_branch {test : Expr} {yes no : List Node} {line : Nat} {v : Value}
    (hv : r.scope.eval test = .ok v)
    (hs : renderNode r put part origin (.conditional test yes no line) = .ok s) :
    renderNodes r put part origin (if v.isTruthy then yes else no) = .ok s := by
  obtain ⟨w, hw, hbranch⟩ := renderNode_conditional_eq_ok_iff.mp hs
  cases hv.symm.trans hw
  exact hbranch

theorem renderNodes_of_picks {test : Expr} {yes branch : List SegmentTree} {rest : BranchTree}
    {before behind first : Text} (h : r.scope.Picks test yes rest before branch behind)
    (hs : renderNode r put part origin (PlacedNode.conditional test (placedFrom before yes)
      (rest.placed (before ++ source (leavesOf yes))) first).node = .ok s) :
    ∃ s', renderNodes r put part origin (PlacedNode.nodes (placedFrom behind branch)) = .ok s' := by
  induction h generalizing first s with
  | yes heval htrue =>
    have hbranch := renderNodes_branch heval hs
    rw [if_pos htrue] at hbranch
    exact ⟨s, hbranch⟩
  | otherwise heval hfalse =>
    have hbranch := renderNodes_branch heval hs
    rw [if_neg (Bool.eq_false_iff.mp hfalse)] at hbranch
    exact ⟨s, hbranch⟩
  | elseIf heval hfalse _ ih =>
    -- The rest of the chain is a condition of its own among the nodes.
    have hbranch := renderNodes_branch heval hs
    rw [if_neg (Bool.eq_false_iff.mp hfalse)] at hbranch
    obtain ⟨s', _, hnext, -, -⟩ := renderNodes_cons_eq_ok_iff.mp hbranch
    exact ih hnext

theorem depthOf_le_of_picks {scope : Scope} {test : Expr} {yes branch : List SegmentTree}
    {rest : BranchTree} {before behind : Text}
    (h : scope.Picks test yes rest before branch behind) :
    depthOf branch ≤ max (depthOf yes) rest.depth := by
  induction h with
  | yes => exact Nat.le_max_left _ _
  | otherwise => exact Nat.le_max_right _ _
  | elseIf _ _ _ ih => exact Nat.le_trans ih (Nat.le_max_right _ _)

/-- What a directive brings can be put in place if the directive can be carried out. -/
theorem exists_put_of_brings {m : RenderPoint} {i : Inclusion} (h : r.Brings m i)
    (hs : renderNodes r put m.part m.origin m.nodes = .ok s) : ∃ s', put i = .ok s' := by
  cases h with
  | shown hname hshown =>
    obtain ⟨s', _, hfirst, -, -⟩ := renderNodes_cons_eq_ok_iff.mp hs
    obtain ⟨name, i', hname', hshown', hput⟩ := renderNode_showPart_eq_ok_iff.mp hfirst
    cases hname.symm.trans hname'
    cases hshown.symm.trans hshown'
    exact ⟨s', hput⟩
  | inherited hinherited =>
    obtain ⟨s', _, hfirst, -, -⟩ := renderNodes_cons_eq_ok_iff.mp hs
    obtain ⟨i', hinherited', hput⟩ := renderNode_showParent_eq_ok_iff.mp hfirst
    cases hinherited.symm.trans hinherited'
    exact ⟨s', hput⟩

/-- The nodes to come are carried out with what is left of the budget, and the conditions around
them and inside them keep to the limit. -/
structure Fits (r : Rendering) (counts : List Nat) (p : TreePoint) (budget : Nat) : Prop where
  renders : ∃ s, renderNodes r (expand r budget) p.part p.origin p.nodes = .ok s
  bodies : counts.length + budget = r.limit + 1
  conditions : ∀ n ∈ counts, n ≤ r.limit
  inside : ∀ n rest, counts = n :: rest → n + depthOf p.trees ≤ r.limit

variable {contents : List SegmentTree} {counts : List Nat} {p : TreePoint} {budget : Nat}

theorem Fits.past {before : Text} {t : SegmentTree} {ts : List SegmentTree}
    (h : r.Fits counts ⟨part, origin, before, t :: ts⟩ budget) :
    r.Fits counts ⟨part, origin, before ++ source t.leaves, ts⟩ budget where
  renders := by
    obtain ⟨s, hs⟩ := h.renders
    obtain ⟨_, s', -, hrest, -⟩ := renderNodes_cons_eq_ok_iff.mp hs
    exact ⟨s', hrest⟩
  bodies := h.bodies
  conditions := h.conditions
  inside := by
    intro n rest hcounts
    have hdepth : depthOf ts ≤ depthOf (t :: ts) := Nat.le_max_right _ _
    exact Nat.le_trans (Nat.add_le_add_left hdepth n) (h.inside n rest hcounts)

theorem Fits.branch {n : Nat} {before behind : Text} {opening : Segment} {test : Expr}
    {yes ts branch : List SegmentTree} {rest : BranchTree}
    (h : r.Fits (n :: counts) ⟨part, origin, before, .conditional opening test yes rest :: ts⟩
      budget) (hpicks : r.scope.Picks test yes rest (before ++ opening.raw) branch behind) :
    r.Fits ((n + 1) :: counts) ⟨part, origin, behind, branch⟩ budget := by
  have hinside : n + 1 + depthOf branch ≤ r.limit := by
    have hbranch := depthOf_le_of_picks hpicks
    have hfirst : max (depthOf yes) rest.depth + 1 ≤
        depthOf (.conditional opening test yes rest :: ts) := Nat.le_max_left _ _
    have hlimit := h.inside n counts rfl
    dsimp only at hlimit
    omega
  constructor
  · obtain ⟨s, hs⟩ := h.renders
    obtain ⟨s', _, hfirst, -, -⟩ := renderNodes_cons_eq_ok_iff.mp hs
    exact renderNodes_of_picks hpicks hfirst
  · exact h.bodies
  · have hrest := (List.forall_mem_cons.mp h.conditions).2
    exact List.forall_mem_cons.mpr ⟨Nat.le_trans (Nat.le_add_right _ _) hinside, hrest⟩
  · intro m ms hcounts
    cases hcounts
    exact hinside

theorem Fits.body {i : Inclusion} {inner : List SegmentTree} {b : Nat}
    (h : r.Fits counts p budget) (hbrings : r.Brings ⟨b, p.part, p.origin, p.nodes⟩ i)
    (hss : segments r.template.own.delimiters i.body = .ok (leavesOf inner))
    (hinner : AllBalanced true inner) :
    ∃ left, r.Fits (0 :: counts) ⟨some i.part, i.origin, [], inner⟩ left := by
  obtain ⟨s, hs⟩ := h.renders
  obtain ⟨s', hput⟩ := exists_put_of_brings hbrings hs
  obtain ⟨left, nodes, rfl, hnodes, hbody⟩ := expand_eq_ok_iff.mp hput
  rw [nodesOf_of_segments _ _ hss] at hnodes
  obtain ⟨hdepth, rfl⟩ := (parseNodes_leavesOf_eq_ok_iff hinner).mp hnodes
  have hbodies := h.bodies
  refine ⟨left, ⟨s', hbody⟩, ?_, ?_, ?_⟩
  · rw [List.length_cons]
    omega
  · exact List.forall_mem_cons.mpr ⟨Nat.zero_le _, h.conditions⟩
  · intro n rest hcounts
    cases hcounts
    rwa [Nat.zero_add]

theorem Encloses.fits (hcontents : r.Fits [0] ⟨none, .source 1, [], contents⟩ r.limit)
    (h : r.Encloses contents counts p) : ∃ budget, r.Fits counts p budget := by
  induction h with
  | start => exact ⟨r.limit, hcontents⟩
  | past _ ih =>
    obtain ⟨budget, hfits⟩ := ih
    exact ⟨budget, hfits.past⟩
  | branch _ hpicks ih =>
    obtain ⟨budget, hfits⟩ := ih
    exact ⟨budget, hfits.branch hpicks⟩
  | body _ hbrings hss hinner ih =>
    obtain ⟨budget, hfits⟩ := ih
    exact hfits.body hbrings hss hinner

end Rendering

/-- So many conditions, in each text, are around a point where directives are carried out. -/
def Template.Encloses (t : Template) (fs : Functions) (limits : Limits) (contents : Text)
    (counts : List Nat) : Prop :=
  ∃ trees parts p, segments t.own.delimiters contents = .ok (leavesOf trees) ∧
    AllBalanced false trees ∧
    nameParts (t.scope fs) (definitionsIn (PlacedNode.nodes (placedFrom [] trees))) =
      (parts, none) ∧
    ((t.register parts).rendering fs limits.directiveDepth parts).Encloses trees counts p

/-- The directives around a point: all conditions, and what put the bodies in place that the
outermost text has inside. -/
def enclosing (counts : List Nat) : Nat := counts.sum + (counts.length - 1)

theorem enclosing_le {counts : List Nat} {limit : Nat} (hlength : counts.length - 1 ≤ limit)
    (hcounts : ∀ n ∈ counts, n ≤ limit) : enclosing counts ≤ limit * (limit + 2) := by
  have hsum : counts.sum ≤ counts.length * limit := List.sum_le_card_nsmul counts limit hcounts
  have hlengths : counts.length * limit ≤ (limit + 1) * limit :=
    Nat.mul_le_mul_right limit (by omega)
  calc enclosing counts ≤ (limit + 1) * limit + limit :=
        Nat.add_le_add (Nat.le_trans hsum hlengths) hlength
    _ = limit * (limit + 2) := by ring

namespace Compiler

theorem fits_of_compileDirectives {c : Compiler} {t : Template} {contents out : Text}
    (h : (c.compileDirectives t contents).2 = .ok out) {trees : List SegmentTree}
    {parts : List NamedPart} (hss : segments t.own.delimiters contents = .ok (leavesOf trees))
    (htrees : AllBalanced false trees)
    (hparts : nameParts (t.scope c.functions)
      (definitionsIn (PlacedNode.nodes (placedFrom [] trees))) = (parts, none)) :
    ((t.register parts).rendering c.functions c.limits.directiveDepth parts).Fits [0]
      ⟨none, .source 1, [], trees⟩ c.limits.directiveDepth := by
  have hmap : (t.runDirectives c.functions c.limits contents).2.map Splice.text = .ok out := h
  obtain ⟨s, hs, -⟩ := Outcome.map_eq_ok_iff.mp hmap
  have hrun : t.runDirectives c.functions c.limits contents =
      ((t.runDirectives c.functions c.limits contents).1, .ok s) := Prod.ext rfl hs
  obtain ⟨nodes, named, hnodes, hnamed, hu, hrender⟩ := Template.exists_of_runDirectives hrun
  rw [nodesOf_of_segments _ _ hss] at hnodes
  obtain ⟨hdepth, rfl⟩ := (parseNodes_leavesOf_eq_ok_iff htrees).mp hnodes
  cases hnamed.symm.trans hparts
  rw [← hu] at hrender
  constructor
  · exact ⟨s, hrender⟩
  · exact Nat.add_comm 1 _
  · exact List.forall_mem_singleton.mpr (Nat.zero_le _)
  · intro n rest hcounts
    cases hcounts
    rwa [Nat.zero_add]

/-- Where directives can be carried out, the bodies that are put into each other keep to the limit,
and so do the conditions around a point in each of these bodies and in the contents. All of them
together can be that many times more. -/
theorem nesting_of_compileDirectives {c : Compiler} {t : Template} {contents out : Text}
    (h : (c.compileDirectives t contents).2 = .ok out) {counts : List Nat}
    (hcounts : t.Encloses c.functions c.limits contents counts) :
    counts.length - 1 ≤ c.limits.directiveDepth ∧
      (∀ n ∈ counts, n ≤ c.limits.directiveDepth) ∧
      enclosing counts ≤ c.limits.directiveDepth * (c.limits.directiveDepth + 2) := by
  obtain ⟨trees, parts, p, hss, htrees, hparts, hencloses⟩ := hcounts
  have hcontents := fits_of_compileDirectives h hss htrees hparts
  obtain ⟨budget, hfits⟩ := hencloses.fits hcontents
  have hlimit : counts.length + budget = c.limits.directiveDepth + 1 := hfits.bodies
  have hlength : counts.length - 1 ≤ c.limits.directiveDepth := by omega
  exact ⟨hlength, hfits.conditions, enclosing_le hlength hfits.conditions⟩

/-- A part that is shown in a condition and has a condition inside. -/
def framed : Template :=
  ⟨{ parts := .ofList [("p".toList, "<% if(true) %>x<% endif %>".toList)] }, []⟩

def framing : Text := "<% if(true) %><% show('p') %><% endif %>".toList

theorem encloses_framing : framed.Encloses .usual ⟨32, 1⟩ framing [1, 1] := by
  let always : Expr := .literal (.bool true)
  let name : Expr := .literal (.text "p".toList)
  let opening : Segment :=
    .directive "<%".toList " ".toList "if".toList "(true) ".toList "%>".toList
  let closing : Segment := .directive "<%".toList " ".toList "endif".toList " ".toList "%>".toList
  let shown : Segment :=
    .directive "<%".toList " ".toList "show".toList "('p') ".toList "%>".toList
  let outer : List SegmentTree :=
    [.conditional opening always [.showPart shown name] (.close closing)]
  let inner : List SegmentTree :=
    [.conditional opening always [.text (.text "x".toList)] (.close closing)]
  have hopening : opening.Requires .ifThen always :=
    ⟨"(true)".toList, .mk "<%".toList " ".toList "(true) ".toList "%>".toList, rfl⟩
  have hshown : shown.Requires .showPart name :=
    ⟨"('p')".toList, .mk "<%".toList " ".toList "('p') ".toList "%>".toList, rfl⟩
  have hclosing : closing.Names .endIf :=
    ⟨none, .mk "<%".toList " ".toList " ".toList "%>".toList⟩
  let r := (framed.register []).rendering .usual 1 []
  have hbody : segments r.template.own.delimiters "<% if(true) %>x<% endif %>".toList =
      .ok (leavesOf inner) := by
    decide +kernel
  have hstart : r.Encloses outer [0] ⟨none, .source 1, [], outer⟩ := .start
  have hshow : r.Encloses outer [1] ⟨none, .source 1, opening.raw, [.showPart shown name]⟩ :=
    hstart.branch (.yes (v := .bool true) rfl rfl)
  have hbrings : r.Brings ⟨0, none, .source 1, [.showPart name 1]⟩
      ⟨⟨"p".toList, 0⟩, "<% if(true) %>x<% endif %>".toList, .fixed 1, 1⟩ :=
    .shown (show r.scope.nameOf name = .ok "p".toList from rfl) (by rfl)
  have hinner : r.Encloses outer [0, 1] ⟨some ⟨"p".toList, 0⟩, .fixed 1, [], inner⟩ :=
    hshow.body hbrings hbody ⟨⟨hopening, ⟨rfl, trivial⟩, hclosing⟩, trivial⟩
  have hdeep : r.Encloses outer [1, 1]
      ⟨some ⟨"p".toList, 0⟩, .fixed 1, opening.raw, [.text (.text "x".toList)]⟩ :=
    hinner.branch (.yes (v := .bool true) rfl rfl)
  exact ⟨outer, [], _, by decide +kernel, ⟨⟨hopening, ⟨hshown, trivial⟩, hclosing⟩, trivial⟩, rfl,
    hdeep⟩

theorem nesting_of_compileDirectives_framing :
    let c : Compiler := { Compiler.usual with limits := ⟨32, 1⟩ }
    (c.compileDirectives framed framing).2 = .ok "x".toList ∧ enclosing [1, 1] ≤ 1 * (1 + 2) := by
  intro c
  have hok : (c.compileDirectives framed framing).2 = .ok "x".toList := by decide +kernel
  exact ⟨hok, (nesting_of_compileDirectives hok encloses_framing).2.2⟩

/-- A condition, a shown part and a condition in it stand inside each other, two more than the limit
lets directives nest. -/
theorem exists_combined_nesting :
    ∃ (c : Compiler) (t : Template) (contents : Text) (counts : List Nat),
      (c.compileDirectives t contents).2 = .ok "x".toList ∧
        t.Encloses c.functions c.limits contents counts ∧
        c.limits.directiveDepth + 2 = enclosing counts :=
  ⟨{ Compiler.usual with limits := ⟨32, 1⟩ }, framed, framing, [1, 1], by decide +kernel, encloses_framing, rfl⟩

end Compiler

end Stencil
