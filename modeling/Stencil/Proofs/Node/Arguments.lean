/- What becomes of the arguments of directives. Each is parsed and kept in the nodes, or refused,
except behind the keywords that end a branch or a block: what stands there is never looked at. -/
import Mathlib.Data.List.Forall2
import Stencil.Proofs.Node.Definitions

namespace Stencil

/-- What an argument serves for. -/
inductive ArgumentUse where
  | definedPart (name : Expr)
  | shownPart (name : Expr)
  | condition (test : Expr)

mutual

/-- The arguments that went into a node, in source order. -/
def Node.uses : Node → List ArgumentUse
  | .text _ _ => []
  | .part name _ children _ _ => .definedPart name :: usesIn children
  | .showPart name _ => [.shownPart name]
  | .showParent _ => []
  | .conditional test yes no _ => .condition test :: (usesIn yes ++ usesIn no)

def usesIn : List Node → List ArgumentUse
  | [] => []
  | n :: ns => n.uses ++ usesIn ns

end

namespace Keyword

/-- What an argument behind the keyword serves for, if one is called for. -/
def use? (e : Expr) : Keyword → Option ArgumentUse
  | .part => some (.definedPart e)
  | .showPart => some (.shownPart e)
  | .ifThen => some (.condition e)
  | .elseIf => some (.condition e)
  | .endPart => none
  | .parent => none
  | .otherwise => none
  | .endIf => none

/-- The keywords that end something without asking for anything. -/
def bare : List Keyword := [.endPart, .otherwise, .endIf]

theorem use?_of_bare {k : Keyword} (h : k ∈ bare) (e : Expr) : k.use? e = none := by
  cases k with
  | endPart => rfl
  | otherwise => rfl
  | endIf => rfl
  | _ => exact absurd h (by decide)

end Keyword

namespace Segment

/-- What the argument of a segment serves for. -/
def use? (s : Segment) : Option ArgumentUse :=
  s.keyword?.bind fun k => s.argument?.bind k.use?

/-- The directive has an argument and would be the same without it. -/
def Overlooked (s : Segment) : Prop :=
  ∃ k ∈ Keyword.bare, ∃ x, s.Directs k (some x) ∧ x ≠ "()".toList

/-- Both are the same, or both have the same one of the bare keywords. -/
def Reworded (s s' : Segment) : Prop :=
  s' = s ∨ ∃ k ∈ Keyword.bare, s.Names k ∧ s'.Names k

/-- What a segment can be that is read into nodes. -/
inductive Accepted (s : Segment) : Prop
  | text : s.isDirective = false → Accepted s
  | asks {k e u} : s.Requires k e → k.use? e = some u → Accepted s
  | parent {x} : s.Directs .parent x → x = none ∨ x = some "()".toList → Accepted s
  | bare {k} : k ∈ Keyword.bare → s.Names k → Accepted s

variable {s s' : Segment} {k : Keyword} {e : Expr} {x : Option Text}

theorem use?_of_requires (h : s.Requires k e) : s.use? = k.use? e := by
  rw [use?, keyword?_of_names h.names, argument?_of_requires h]
  rfl

theorem use?_of_isDirective (h : s.isDirective = false) : s.use? = none := by
  rw [use?, keyword?_of_isDirective h]
  rfl

theorem use?_of_names (h : s.Names k) (hk : ∀ e, k.use? e = none) : s.use? = none := by
  rw [use?, keyword?_of_names h, Option.bind_some]
  cases s.argument? with
  | none => rfl
  | some e => exact hk e

theorem use?_of_bare (hk : k ∈ Keyword.bare) (h : s.Names k) : s.use? = none :=
  use?_of_names h (Keyword.use?_of_bare hk)

theorem Reworded.use? (h : s.Reworded s') : s'.use? = s.use? := by
  rcases h with rfl | ⟨k, hk, hs, hs'⟩
  · rfl
  · rw [use?_of_bare hk hs, use?_of_bare hk hs']

theorem Reworded.isDirective (h : s.Reworded s') (hs : s.isDirective = false) : s' = s := by
  rcases h with rfl | ⟨k, -, hnames, -⟩
  · rfl
  · exact absurd (keyword?_of_names hnames) (by rw [keyword?_of_isDirective hs]; nofun)

/-- Only a bare keyword can be reworded. -/
theorem Reworded.eq_of_names (h : s.Reworded s') (hs : s.Names k) (hk : k ∉ Keyword.bare) :
    s' = s := by
  rcases h with rfl | ⟨l, hl, hnames, -⟩
  · rfl
  · exact absurd (hs.unique hnames ▸ hl) hk

theorem Reworded.names (h : s.Reworded s') (hs : s.Names k) : s'.Names k := by
  rcases h with rfl | ⟨l, -, hnames, hnames'⟩
  · exact hs
  · exact hs.unique hnames ▸ hnames'

theorem Directs.expression? {opening lead name argument closing : Text}
    (h : Directs k x (.directive opening lead name argument closing)) :
    Segment.expression? argument = x := by
  cases h
  rfl

/-- An argument of an accepted segment is used, or it is overlooked. -/
theorem Accepted.use? {opening lead name argument closing x : Text}
    (h : Accepted (.directive opening lead name argument closing))
    (hx : expression? argument = some x) (hne : x ≠ "()".toList) :
    Overlooked (.directive opening lead name argument closing) ∨
      ∃ k e u, Keyword.ofName? name = some k ∧ Expr.parse x = .ok e ∧ k.use? e = some u ∧
        (directive opening lead name argument closing).use? = some u := by
  cases h with
  | text h => cases h
  | asks hrequires hu =>
    have huse := (use?_of_requires hrequires).trans hu
    obtain ⟨y, hy, hparse⟩ := hrequires
    cases hx.symm.trans hy.expression?
    exact .inr ⟨_, _, _, keyword?_of_names ⟨_, hy⟩, hparse, hu, huse⟩
  | parent hdirects hnone =>
    cases hdirects.expression?.symm.trans hx
    rcases hnone with hnone | hparens
    · cases hnone
    · exact absurd (Option.some.inj hparens) hne
  | bare hk hnames =>
    obtain ⟨y, hy⟩ := hnames
    cases hy.expression?.symm.trans hx
    exact .inl ⟨_, hk, x, hy, hne⟩

end Segment

namespace NodeProgress

variable {limit : Nat} {s next : NodeProgress} {segment : Segment} {ss : List Segment}

theorem accepted_of_step (h : s.step limit segment = .ok next) : segment.Accepted := by
  rcases step_eq_ok_iff.mp h with htakes | hcloses
  · cases htakes with
    | text hs => exact .text hs
    | showPart hs => exact .asks hs rfl
    | showParent hs hx => exact .parent hs hx
    | part hs => exact .asks hs rfl
    | ifThen hs => exact .asks hs rfl
  · cases hcloses with
    | endPart hs => exact .bare (by decide) hs
    | elseIf hs => exact .asks hs rfl
    | otherwise hs => exact .bare (by decide) hs
    | endBranch hs => exact .bare (by decide) hs
    | endOtherwise hs => exact .bare (by decide) hs

theorem accepted_of_run (h : s.run limit ss = .ok next) : ∀ x ∈ ss, x.Accepted := by
  induction ss generalizing s with
  | nil => exact fun _ hx => absurd hx List.not_mem_nil
  | cons segment ss ih =>
    rw [run] at h
    split at h
    next mid hmid => exact List.forall_mem_cons.mpr ⟨accepted_of_step hmid, ih h⟩
    next => cases h

theorem step_of_parentWithArgument {x : Text} (h : segment.Directs .parent (some x))
    (hx : x ≠ "()".toList) : s.step limit segment = .error ⟨.parentWithArgument, s.line⟩ := by
  rw [step_of_directs h, atDirective, Keyword.ofName?_spelling]
  have hall : (some x).all (· == "()".toList) = false := by simpa using hx
  simp only [hall, Bool.false_eq_true, if_false]
  rfl

end NodeProgress

section

variable {inPart : Bool} {limit room : Nat} {before : Text} {ss ss' : List Segment}
  {ps : List PlacedNode}

theorem PlacedNode.usesIn_nodes_cons (p : PlacedNode) (ps : List PlacedNode) :
    usesIn (PlacedNode.nodes (p :: ps)) = p.node.uses ++ usesIn (PlacedNode.nodes ps) := by
  rw [PlacedNode.nodes, usesIn]

/-- The nodes use what is written in their segments, in that order. -/
theorem usesIn_of_items (h : Items inPart room before ss ps) :
    usesIn (PlacedNode.nodes ps) = ss.filterMap Segment.use? := by
  induction h using Items.rec
    (motive_2 := fun _ _ test _ _ ss p _ =>
      p.node.uses = .condition test :: ss.filterMap Segment.use?) with
  | nil => rfl
  | text hs _ ih =>
    rw [PlacedNode.usesIn_nodes_cons, ih,
      List.filterMap_cons_none (Segment.use?_of_isDirective hs)]
    rfl
  | showPart hs _ ih =>
    rw [PlacedNode.usesIn_nodes_cons, ih, List.filterMap_cons_some (Segment.use?_of_requires hs)]
    rfl
  | showParent hs _ _ ih =>
    rw [PlacedNode.usesIn_nodes_cons, ih,
      List.filterMap_cons_none (Segment.use?_of_names ⟨_, hs⟩ fun _ => rfl)]
    rfl
  | part hs _ hclose _ ihchildren ih =>
    rw [PlacedNode.usesIn_nodes_cons, ih, List.filterMap_append,
      List.filterMap_cons_some (Segment.use?_of_requires hs), List.filterMap_append,
      List.filterMap_cons_none (Segment.use?_of_bare (by decide) hclose), List.filterMap_nil,
      List.append_nil, ← ihchildren]
    rfl
  | conditional hs _ _ ihchain ih =>
    rw [PlacedNode.usesIn_nodes_cons, ihchain, ih, List.filterMap_append,
      List.filterMap_cons_some (Segment.use?_of_requires hs)]
  | close _ hs ih =>
    rw [PlacedNode.node, Node.uses, ih, List.filterMap_append,
      List.filterMap_cons_none (Segment.use?_of_bare (by decide) hs)]
    rfl
  | otherwise _ hs _ hclose ihyes ihno =>
    rw [PlacedNode.node, Node.uses, ihyes, ihno, List.filterMap_append,
      List.filterMap_cons_none (Segment.use?_of_bare (by decide) hs), List.filterMap_append,
      List.filterMap_cons_none (Segment.use?_of_bare (by decide) hclose), List.filterMap_nil,
      List.append_nil]
  | elseIf _ hs _ ih ihchain =>
    rw [PlacedNode.node, Node.uses, ih, PlacedNode.usesIn_nodes_cons, ihchain, PlacedNode.nodes,
      usesIn, List.append_nil, List.filterMap_append,
      List.filterMap_cons_some (Segment.use?_of_requires hs)]

theorem exists_append_of_forall₂ {α β : Type} {R : α → β → Prop} {as bs : List α} {cs : List β}
    (h : List.Forall₂ R (as ++ bs) cs) :
    ∃ xs ys, cs = xs ++ ys ∧ List.Forall₂ R as xs ∧ List.Forall₂ R bs ys := by
  refine ⟨cs.take as.length, cs.drop as.length, (List.take_append_drop ..).symm, ?_, ?_⟩
  · have hfront := List.forall₂_take as.length h
    rwa [List.take_left] at hfront
  · have hrear := List.forall₂_drop as.length h
    rwa [List.drop_left] at hrear

theorem exists_concat_of_forall₂ {α β : Type} {R : α → β → Prop} {as : List α} {b : α}
    {cs : List β} (h : List.Forall₂ R (as ++ [b]) cs) :
    ∃ xs y, cs = xs ++ [y] ∧ List.Forall₂ R as xs ∧ R b y := by
  obtain ⟨xs, ys, rfl, hxs, hys⟩ := exists_append_of_forall₂ h
  obtain ⟨y, rest, hy, hrest, rfl⟩ := List.forall₂_cons_left_iff.mp hys
  rw [List.forall₂_nil_left_iff.mp hrest]
  exact ⟨xs, y, rfl, hxs, hy⟩

/-- Segments are read into nodes however the bare keywords among them are worded. -/
theorem exists_items_of_reworded (h : Items inPart room before ss ps) :
    ∀ {ss'} (before'), List.Forall₂ Segment.Reworded ss ss' →
      ∃ ps', Items inPart room before' ss' ps' := by
  induction h using Items.rec
    (motive_2 := fun inPart room test _ _ ss _ _ => ∀ {ss'} (first' before'),
      List.Forall₂ Segment.Reworded ss ss' →
        ∃ p', Chain inPart room test first' before' ss' p') with
  | nil =>
    intro ss' before' hss
    rw [List.forall₂_nil_left_iff.mp hss]
    exact ⟨_, .nil⟩
  | text hs _ ih =>
    intro ss' before' hss
    obtain ⟨s', rest', hs', hrest, rfl⟩ := List.forall₂_cons_left_iff.mp hss
    obtain ⟨ps', hps'⟩ := ih _ hrest
    rw [hs'.isDirective hs]
    exact ⟨_, .text hs hps'⟩
  | showPart hs _ ih =>
    intro ss' before' hss
    obtain ⟨s', rest', hs', hrest, rfl⟩ := List.forall₂_cons_left_iff.mp hss
    obtain ⟨ps', hps'⟩ := ih _ hrest
    rw [hs'.eq_of_names hs.names (by decide)]
    exact ⟨_, .showPart hs hps'⟩
  | showParent hs hx _ ih =>
    intro ss' before' hss
    obtain ⟨s', rest', hs', hrest, rfl⟩ := List.forall₂_cons_left_iff.mp hss
    obtain ⟨ps', hps'⟩ := ih _ hrest
    rw [hs'.eq_of_names ⟨_, hs⟩ (by decide)]
    exact ⟨_, .showParent hs hx hps'⟩
  | part hs _ hclose _ ihchildren ih =>
    intro ss' before' hss
    obtain ⟨block, rest', rfl, hblock, hrest⟩ := exists_append_of_forall₂ hss
    obtain ⟨s', inner, hs', hinner, rfl⟩ := List.forall₂_cons_left_iff.mp hblock
    obtain ⟨body, close', rfl, hbody, hclose'⟩ := exists_concat_of_forall₂ hinner
    rw [hs'.eq_of_names hs.names (by decide)]
    obtain ⟨children', hchildren'⟩ := ihchildren _ hbody
    obtain ⟨ps', hps'⟩ := ih _ hrest
    exact ⟨_, .part hs hchildren' (hclose'.names hclose) hps'⟩
  | conditional hs _ _ ihchain ih =>
    intro ss' before' hss
    obtain ⟨block, rest', rfl, hblock, hrest⟩ := exists_append_of_forall₂ hss
    obtain ⟨s', inner, hs', hinner, rfl⟩ := List.forall₂_cons_left_iff.mp hblock
    rw [hs'.eq_of_names hs.names (by decide)]
    obtain ⟨p', hp'⟩ := ihchain _ _ hinner
    obtain ⟨ps', hps'⟩ := ih _ hrest
    exact ⟨_, .conditional hs hp' hps'⟩
  | close _ hs ih first' before' hss =>
    obtain ⟨body, s', rfl, hbody, hs'⟩ := exists_concat_of_forall₂ hss
    obtain ⟨yes', hyes'⟩ := ih _ hbody
    exact ⟨_, .close hyes' (hs'.names hs)⟩
  | otherwise _ hs _ hclose ihyes ihno first' before' hss =>
    obtain ⟨body, turned, rfl, hbody, hturned⟩ := exists_append_of_forall₂ hss
    obtain ⟨s', rest', hs', hrest, rfl⟩ := List.forall₂_cons_left_iff.mp hturned
    obtain ⟨other, close', rfl, hother, hclose'⟩ := exists_concat_of_forall₂ hrest
    obtain ⟨yes', hyes'⟩ := ihyes _ hbody
    obtain ⟨no', hno'⟩ := ihno _ hother
    exact ⟨_, .otherwise hyes' (hs'.names hs) hno' (hclose'.names hclose)⟩
  | elseIf _ hs _ ih ihchain first' before' hss =>
    obtain ⟨body, turned, rfl, hbody, hturned⟩ := exists_append_of_forall₂ hss
    obtain ⟨s', rest', hs', hrest, rfl⟩ := List.forall₂_cons_left_iff.mp hturned
    rw [hs'.eq_of_names hs.names (by decide)]
    obtain ⟨yes', hyes'⟩ := ih _ hbody
    obtain ⟨p', hp'⟩ := ihchain _ _ hrest
    exact ⟨_, .elseIf hyes' hs hp'⟩

end

variable {limit : Nat} {inPart : Bool} {ss ss' : List Segment} {ns : List Node}

theorem accepted_of_parseNodes (h : parseNodes limit inPart ss = .ok ns) :
    ∀ s ∈ ss, s.Accepted := by
  obtain ⟨final, hrun, -⟩ := parseNodes_eq_ok_iff_run.mp h
  exact NodeProgress.accepted_of_run hrun

theorem usesIn_of_parseNodes (h : parseNodes limit inPart ss = .ok ns) :
    usesIn ns = ss.filterMap Segment.use? := by
  obtain ⟨ps, hps, rfl⟩ := parseNodes_eq_ok_iff.mp h
  exact usesIn_of_items hps

theorem filterMap_use?_of_reworded (h : List.Forall₂ Segment.Reworded ss ss') :
    ss'.filterMap Segment.use? = ss.filterMap Segment.use? := by
  induction h with
  | nil => rfl
  | cons hs _ ih => rw [List.filterMap_cons, List.filterMap_cons, hs.use?, ih]

theorem parseNodes_of_reworded (h : parseNodes limit inPart ss = .ok ns)
    (hss : List.Forall₂ Segment.Reworded ss ss') :
    ∃ ns', parseNodes limit inPart ss' = .ok ns' ∧ usesIn ns' = usesIn ns := by
  obtain ⟨ps, hps, -⟩ := parseNodes_eq_ok_iff.mp h
  obtain ⟨ps', hps'⟩ := exists_items_of_reworded hps [] hss
  have hparsed := parseNodes_of_items hps'
  refine ⟨_, hparsed, ?_⟩
  rw [usesIn_of_parseNodes hparsed, usesIn_of_parseNodes h, filterMap_use?_of_reworded hss]

theorem parseNodes_of_parentWithArgument {front rear : List Segment} {s : Segment} {x : Text}
    (hs : s.Directs .parent (some x)) (hx : x ≠ "()".toList) :
    ∃ f, parseNodes limit inPart (front ++ s :: rear) = .error f ∧
      ((NodeProgress.start inPart).run limit front = .error f ∨
        f = ⟨.parentWithArgument, (source front).endLine⟩) := by
  cases hrun : (NodeProgress.start inPart).run limit front with
  | error f =>
    refine ⟨f, ?_, .inl rfl⟩
    rw [parseNodes, NodeProgress.run_append, hrun]
  | ok mid =>
    have hstart : (NodeProgress.start inPart).line = Text.endLine [] := rfl
    have hline := NodeProgress.line_of_run_eq hrun hstart
    refine ⟨_, ?_, .inr rfl⟩
    rw [parseNodes, NodeProgress.run_append_of_run hrun, NodeProgress.run,
      NodeProgress.step_of_parentWithArgument hs hx, hline, List.nil_append]

/-- No argument of nodes that are accepted is lost, unless it stands behind a bare keyword: the
directive is then the same with any other argument and with none. -/
theorem arguments_of_parseNodes (limit : Nat) (inPart : Bool) (ss : List Segment) :
    (∀ ns, parseNodes limit inPart ss = .ok ns →
      usesIn ns = ss.filterMap Segment.use? ∧
      (∀ opening lead name argument closing x,
        .directive opening lead name argument closing ∈ ss →
        Segment.expression? argument = some x → x ≠ "()".toList →
        Segment.Overlooked (.directive opening lead name argument closing) ∨
          ∃ k e u, Keyword.ofName? name = some k ∧ Expr.parse x = .ok e ∧ k.use? e = some u ∧
            (Segment.directive opening lead name argument closing).use? = some u) ∧
      ∀ ss', List.Forall₂ Segment.Reworded ss ss' →
        ∃ ns', parseNodes limit inPart ss' = .ok ns' ∧ usesIn ns' = usesIn ns) ∧
    ∀ front s rear x, ss = front ++ s :: rear → s.Directs .parent (some x) → x ≠ "()".toList →
      ∃ f, parseNodes limit inPart ss = .error f ∧
        ((NodeProgress.start inPart).run limit front = .error f ∨
          f = ⟨.parentWithArgument, (source front).endLine⟩) := by
  refine ⟨fun ns h => ⟨usesIn_of_parseNodes h, ?_, fun _ => parseNodes_of_reworded h⟩, ?_⟩
  · intro opening lead name argument closing x hmem hx hne
    exact (accepted_of_parseNodes h _ hmem).use? hx hne
  · rintro front s rear x rfl hs hx
    exact parseNodes_of_parentWithArgument hs hx

/-- The condition is used, and `now` is no part of it. -/
theorem arguments_of_parseNodes_worded : ∃ ss ns,
    segments {} "<% if($x) %>a<% endif now %>".toList = .ok ss ∧
      parseNodes 32 false ss = .ok ns ∧ usesIn ns = [.condition (.var "x".toList)] := by
  let ss : List Segment :=
    [.directive "<%".toList " ".toList "if".toList "($x) ".toList "%>".toList,
      .text "a".toList,
      .directive "<%".toList " ".toList "endif".toList " now ".toList "%>".toList]
  have hnodes : parseNodes 32 false ss = .ok
      [.conditional (.var "x".toList) [.text "a".toList 1] [] 1] := rfl
  have huses := ((arguments_of_parseNodes 32 false ss).1 _ hnodes).1
  have hwritten : ss.filterMap Segment.use? = [.condition (.var "x".toList)] := rfl
  exact ⟨ss, _, by decide +kernel, hnodes, huses.trans hwritten⟩

/-- A condition behind `else` is passed over, so that the branch is taken in any case. -/
theorem exists_overlooked_condition : ∃ ss d ns,
    segments {} "<% if(false) %>a<% else if(false) %>b<% endif %>".toList = .ok ss ∧
      d ∈ ss ∧ d.Directs .otherwise (some "if(false)".toList) ∧
      parseNodes 32 false ss = .ok ns ∧
      usesIn ns = [.condition (.literal (.bool false))] := by
  have hss : segments {} "<% if(false) %>a<% else if(false) %>b<% endif %>".toList = .ok
      [.directive "<%".toList " ".toList "if".toList "(false) ".toList "%>".toList,
        .text "a".toList,
        .directive "<%".toList " ".toList "else".toList " if(false) ".toList "%>".toList,
        .text "b".toList,
        .directive "<%".toList " ".toList "endif".toList " ".toList "%>".toList] := by
    decide +kernel
  refine ⟨_, _, [.conditional (.literal (.bool false)) [.text "a".toList 1]
    [.text "b".toList 1] 1], hss, ?_, .mk "<%".toList " ".toList " if(false) ".toList "%>".toList,
    rfl, rfl⟩
  exact List.mem_of_getElem? (i := 2) rfl

end Stencil
