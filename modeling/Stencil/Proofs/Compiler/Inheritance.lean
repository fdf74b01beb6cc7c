/- A `parent` goes on with the next body up the chain, like a call to an overridden method. -/
import Stencil.Proofs.Compiler.Registration
import Stencil.Proofs.Splice.Limit
import Stencil.Proofs.Splice.Points
import Stencil.Proofs.Splice.Super

namespace Stencil

namespace Rendering

variable {r : Rendering} {m p : RenderPoint}

/-- Carrying out what is still to come at a point. -/
def renderFrom (r : Rendering) (m : RenderPoint) : Except Failure Splice :=
  r.renderNodes (r.expand m.budget) m.part m.origin m.nodes

/-- What goes wrong at a point went wrong before it. -/
theorem Steps.renderFrom_eq_error {f : Failure} (h : r.Steps m p)
    (hf : r.renderFrom p = .error f) : r.renderFrom m = .error f := by
  rw [renderFrom] at hf ⊢
  cases h with
  | past hs =>
    rw [renderNodes, hs]
    dsimp only
    rw [hf]
  | @branch b part origin test yes no line ns v hv =>
    have hnode : renderNode r (expand r b) part origin (.conditional test yes no line) =
        .error f := by
      rw [renderNode, hv, ← hf]
      exact (apply_ite _ _ _ _).symm
    rw [renderNodes, hnode]
  | @shown b part origin e line ns name i nodes hname hshown hnodes =>
    have hnode : renderNode r (expand r (b + 1)) part origin (.showPart e line) = .error f := by
      rw [renderNode, hname]
      dsimp only
      rw [hshown]
      dsimp only
      rw [expand, hnodes]
      exact hf
    rw [renderNodes, hnode]
  | @inherited b part origin line ns i nodes hinherited hnodes =>
    have hnode : renderNode r (expand r (b + 1)) part origin (.showParent line) = .error f := by
      rw [renderNode, hinherited]
      dsimp only
      rw [expand, hnodes]
      exact hf
    rw [renderNodes, hnode]

/-- What comes of a point is a stretch of the whole. -/
theorem Steps.exists_renderFrom {s : Splice} (h : r.Steps m p) (hs : r.renderFrom m = .ok s) :
    ∃ u, r.renderFrom p = .ok u ∧ u.text <:+: s.text := by
  have hfirst : ∀ first rest : Splice, first.text <:+: (first ++ rest).text := by
    intro first rest
    rw [Splice.text_append]
    exact (List.prefix_append _ _).isInfix
  rw [renderFrom] at hs
  cases h with
  | past hn =>
    obtain ⟨first, rest, -, hrest, rfl⟩ := renderNodes_cons_eq_ok_iff.mp hs
    refine ⟨rest, hrest, ?_⟩
    rw [Splice.text_append]
    exact (List.suffix_append _ _).isInfix
  | branch hv =>
    obtain ⟨first, rest, hnode, -, rfl⟩ := renderNodes_cons_eq_ok_iff.mp hs
    obtain ⟨v, hv', htaken⟩ := renderNode_conditional_eq_ok_iff.mp hnode
    cases hv.symm.trans hv'
    exact ⟨first, htaken, hfirst first rest⟩
  | shown hname hshown hnodes =>
    obtain ⟨first, rest, hnode, -, rfl⟩ := renderNodes_cons_eq_ok_iff.mp hs
    obtain ⟨name, i, hname', hshown', hput⟩ := renderNode_showPart_eq_ok_iff.mp hnode
    cases hname.symm.trans hname'
    cases hshown.symm.trans hshown'
    obtain ⟨b, nodes, hb, hnodes', hbody⟩ := expand_eq_ok_iff.mp hput
    cases hb
    cases hnodes.symm.trans hnodes'
    exact ⟨first, hbody, hfirst first rest⟩
  | inherited hinherited hnodes =>
    obtain ⟨first, rest, hnode, -, rfl⟩ := renderNodes_cons_eq_ok_iff.mp hs
    obtain ⟨i, hinherited', hput⟩ := renderNode_showParent_eq_ok_iff.mp hnode
    cases hinherited.symm.trans hinherited'
    obtain ⟨b, nodes, hb, hnodes', hbody⟩ := expand_eq_ok_iff.mp hput
    cases hb
    cases hnodes.symm.trans hnodes'
    exact ⟨first, hbody, hfirst first rest⟩

section Leads

variable {n : Node} {ns : List Node}

/-- If the node that comes next goes wrong, so does everything. -/
theorem Leads.renderFrom_eq_error {f : Failure} (h : r.Leads m p) (hp : p.nodes = n :: ns)
    (hf : r.renderNode (r.expand p.budget) p.part p.origin n = .error f) :
    r.renderFrom m = .error f := by
  have hpoint : r.renderFrom p = .error f := by
    rw [renderFrom, hp, renderNodes, hf]
  clear hp hf
  induction h with
  | refl => exact hpoint
  | tail _ hstep ih => exact ih (hstep.renderFrom_eq_error hpoint)

/-- The text of the node that comes next is a stretch of the whole. -/
theorem Leads.infix_renderFrom {s u : Splice} (h : r.Leads m p) (hp : p.nodes = n :: ns)
    (hu : r.renderNode (r.expand p.budget) p.part p.origin n = .ok u)
    (hs : r.renderFrom m = .ok s) : u.text <:+: s.text := by
  have hpoint : ∃ v, r.renderFrom p = .ok v ∧ v.text <:+: s.text := by
    clear hp hu
    induction h with
    | refl => exact ⟨s, hs, List.infix_rfl⟩
    | tail _ hstep ih =>
      obtain ⟨v, hv, hwithin⟩ := ih
      obtain ⟨w, hw, hinner⟩ := hstep.exists_renderFrom hv
      exact ⟨w, hw, hinner.trans hwithin⟩
  obtain ⟨v, hv, hwithin⟩ := hpoint
  rw [renderFrom, hp] at hv
  obtain ⟨first, rest, hfirst, -, rfl⟩ := renderNodes_cons_eq_ok_iff.mp hv
  cases hu.symm.trans hfirst
  rw [Splice.text_append] at hwithin
  exact (List.prefix_append _ _).isInfix.trans hwithin

/-- No body is being put in place outside the bodies of parts. -/
theorem Leads.budget_eq (h : r.Leads m p) (hp : p.part = none) :
    p.budget = m.budget := by
  induction h with
  | refl => rfl
  | tail _ hstep ih =>
    cases hstep with
    | past _ => exact ih hp
    | branch _ => exact ih hp
    | shown _ _ _ => cases hp
    | inherited _ _ => cases hp

end Leads

end Rendering

namespace Compiler

/-- A part that is shown in the contents is its nearest body, in which each `parent` stands for the
next one up the chain, and so on to the last one. That works exactly if the last one holds no
`parent` and the limit allows as many bodies inside each other as there are. If it does not work
then nor do the contents, because of the limit if there are more bodies than that, and otherwise for
want of a body. -/
theorem showPart_super (c : Compiler) (t : Template) (contents : Text) {nodes ns : List Node}
    {parts : List NamedPart} {r : Rendering} {m : RenderPoint} {e : Expr} {line : Nat} {name : Text}
    {bodies : List (List Segment)} {last : List Segment}
    (hnodes : Rendering.nodesOf t.own.delimiters c.limits.directiveDepth false contents = .ok nodes)
    (hparts : nameParts (t.scope c.functions) (definitionsIn nodes) = (parts, none))
    (hr : (t.register parts).rendering c.functions c.limits.directiveDepth parts = r)
    (hleads : r.Leads ⟨c.limits.directiveDepth, none, .source 1, nodes⟩ m)
    (hpart : m.part = none) (hshow : m.nodes = .showPart e line :: ns)
    (hname : (t.scope c.functions).nameOf e = .ok name)
    (hbodies : (t.register parts).HasBodies name (bodies ++ [last]))
    (hcalls : ∀ ss ∈ bodies, ss.any Segment.isDirective = true) :
    let shown := r.renderNode (r.expand m.budget) m.part m.origin (.showPart e line)
    ((∃ s, shown = .ok s) ↔ last.any Segment.isDirective = false ∧
        bodies.length + 1 ≤ c.limits.directiveDepth) ∧
      (∀ s, shown = .ok s → s.text = superText (bodies ++ [last]) ∧
        ∀ out, (c.compileDirectives t contents).2 = .ok out → s.text <:+: out) ∧
      ∀ f, shown = .error f → (c.compileDirectives t contents).2 = .error f ∧
        f.cause.kind = if c.limits.directiveDepth < bodies.length + 1 then .recursionLimit
          else .undefinedPart := by
  intro shown
  have hrun : (c.compileDirectives t contents).2 =
      (r.renderFrom ⟨c.limits.directiveDepth, none, .source 1, nodes⟩).map Splice.text := by
    rw [compileDirectives, Template.runDirectives_of_named hnodes hparts, ← hr]
    rfl
  have hfails : ∀ f, shown = .error f → (c.compileDirectives t contents).2 = .error f := by
    intro f hf
    rw [hrun, hleads.renderFrom_eq_error hshow hf]
    rfl
  have hwithin : ∀ s, shown = .ok s → ∀ out, (c.compileDirectives t contents).2 = .ok out →
      s.text <:+: out := by
    intro s hs out hout
    rw [hrun] at hout
    obtain ⟨all, hall, rfl⟩ := Outcome.map_eq_ok_iff.mp hout
    exact hleads.infix_renderFrom hshow hs hall
  have houtcome : Rendering.outcome shown =
      superOutcome name c.limits.directiveDepth c.limits.directiveDepth (bodies ++ [last]) := by
    rw [Rendering.outcome_renderNode (Rendering.outcome_expand m.budget), ← hr,
      Template.setting_rendering, hleads.budget_eq hpart]
    exact Setting.drawNode_eq_superOutcome hname hbodies (by simp) _ line m.part
  have hworks : ∀ s, shown = .ok s → (last.any Segment.isDirective = false ∧
      bodies.length + 1 ≤ c.limits.directiveDepth) ∧ superText (bodies ++ [last]) = s.text := by
    intro s hs
    have htext := Rendering.outcome_eq_ok_iff.mpr ⟨s, hs, rfl⟩
    exact (superOutcome_eq_ok_iff hcalls).mp (houtcome.symm.trans htext)
  refine ⟨⟨fun ⟨s, hs⟩ => (hworks s hs).1, fun hlast => ?_⟩, fun s hs => ?_, fun f hf => ?_⟩
  · have htext := houtcome.trans ((superOutcome_eq_ok_iff hcalls).mpr ⟨hlast, rfl⟩)
    obtain ⟨s, hs, -⟩ := Rendering.outcome_eq_ok_iff.mp htext
    exact ⟨s, hs⟩
  · exact ⟨(hworks s hs).2.symm, hwithin s hs⟩
  · have hcause := Rendering.outcome_eq_error_iff.mpr ⟨f, hf, rfl⟩
    exact ⟨hfails f hf, kind_of_superOutcome hcalls (houtcome.symm.trans hcause)⟩

/-- A page with a part of its own, which two of its three parents have as well. -/
def gapped : Template :=
  ⟨{ contents := "<% part('p') %>a<% parent %>b<% parent %><% endpart %>-<% show('p') %>".toList },
    [{}, { parts := .ofList [("p".toList, "[<% parent %>]".toList)] },
      { parts := .ofList [("p".toList, "c".toList)] }]⟩

/-- The three bodies are put into each other, the last two of them twice. With a limit of two there
is no room for the last one. -/
theorem showPart_super_gapped :
    let parent := Segment.directive "<%".toList " ".toList "parent".toList " ".toList "%>".toList
    let bodies := [[.text "a".toList, parent, .text "b".toList, parent],
      [.text "[".toList, parent, .text "]".toList]]
    superText (bodies ++ [[.text "c".toList]]) = "a[c]b[c]".toList ∧
      (∃ out, (compileDirectives { Compiler.usual with limits := ⟨1, 3⟩ } gapped gapped.own.contents).2 = .ok out ∧
        superText (bodies ++ [[.text "c".toList]]) <:+: out) ∧
      ∃ f, (compileDirectives { Compiler.usual with limits := ⟨1, 2⟩ } gapped gapped.own.contents).2 = .error f ∧
        f.cause.kind = .recursionLimit := by
  intro parent bodies
  have hparent : parent.CallsParent :=
    ⟨none, .mk "<%".toList " ".toList " ".toList "%>".toList, .inl rfl⟩
  have hcalls : ∀ ss ∈ bodies, ss.any Segment.isDirective = true := by decide
  have honly : ∀ ss ∈ bodies ++ [[.text "c".toList]], OnlyCallsParent ss := by
    simp [bodies, OnlyCallsParent, hparent, Segment.isDirective]
  let parts : List NamedPart := [⟨"p".toList, "a<% parent %>b<% parent %>".toList, 1⟩]
  have hbodies : (gapped.register parts).HasBodies "p".toList
      (bodies ++ [[.text "c".toList]]) := by
    refine .cons ⟨by decide +kernel, honly _ (by simp [bodies])⟩
      (.cons ⟨by decide +kernel, honly _ (by simp [bodies])⟩
        (.cons ⟨by decide +kernel, honly _ (by simp [bodies])⟩ .nil))
  let nodes : List Node := [.part (.literal (.text "p".toList))
    "a<% parent %>b<% parent %>".toList
    [.text "a".toList 1, .showParent 1, .text "b".toList 1, .showParent 1] 1 1,
    .text "-".toList 1, .showPart (.literal (.text "p".toList)) 1]
  have hnodes : ∀ limit, 1 ≤ limit →
      Rendering.nodesOf {} limit false gapped.own.contents = .ok nodes := by
    intro limit hlimit
    have hcut : segments {} gapped.own.contents = .ok
        [.directive "<%".toList " ".toList "part".toList "('p') ".toList "%>".toList,
          .text "a".toList, parent, .text "b".toList, parent,
          .directive "<%".toList " ".toList "endpart".toList " ".toList "%>".toList,
          .text "-".toList,
          .directive "<%".toList " ".toList "show".toList "('p') ".toList "%>".toList] := by
      decide +kernel
    have hone : Rendering.nodesOf {} 1 false gapped.own.contents = .ok nodes := by
      rw [Rendering.nodesOf, hcut]
      rfl
    exact (Rendering.keptUnless_nodesOf hlimit {} false gapped.own.contents).eq_ok hone
  have hleads : ∀ r : Rendering, ∀ limit, r.Leads ⟨limit, none, .source 1, nodes⟩
      ⟨limit, none, .source 1, [.showPart (.literal (.text "p".toList)) 1]⟩ := by
    intro r limit
    have hpart : r.Steps ⟨limit, none, .source 1, nodes⟩ ⟨limit, none, .source 1, nodes.drop 1⟩ :=
      .past (s := []) (by rw [Rendering.renderNode])
    have htext : r.Steps ⟨limit, none, .source 1, nodes.drop 1⟩
        ⟨limit, none, .source 1, nodes.drop 2⟩ :=
      .past (s := [⟨"-".toList, 1, true⟩]) (by rw [Rendering.renderNode]; rfl)
    exact .head hpart (.single htext)
  have hparts : nameParts (gapped.scope .usual) (definitionsIn nodes) = (parts, none) := rfl
  have hthree := showPart_super { Compiler.usual with limits := ⟨1, 3⟩ } gapped gapped.own.contents
    (hnodes 3 (by decide)) hparts rfl (hleads _ 3) rfl rfl rfl hbodies hcalls
  have htwo := showPart_super { Compiler.usual with limits := ⟨1, 2⟩ } gapped gapped.own.contents
    (hnodes 2 (by decide)) hparts rfl (hleads _ 2) rfl rfl rfl hbodies hcalls
  refine ⟨by decide +kernel, ?_, ?_⟩
  · have hout : (compileDirectives { Compiler.usual with limits := ⟨1, 3⟩ } gapped gapped.own.contents).2 =
        .ok "-a[c]b[c]".toList := by
      decide +kernel
    obtain ⟨s, hs⟩ := hthree.1.mpr (by decide)
    obtain ⟨htext, hwithin⟩ := hthree.2.1 s hs
    exact ⟨_, hout, htext ▸ hwithin _ hout⟩
  · obtain ⟨f, hf⟩ := Outcome.exists_error_iff.mpr (mt htwo.1.mp (by decide))
    exact ⟨f, htwo.2.2 f hf⟩

end Compiler

end Stencil
