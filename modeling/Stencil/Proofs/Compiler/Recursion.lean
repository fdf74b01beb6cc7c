/- Parts that come up again inside their own bodies, and the limit that they run into. -/
import Stencil.Proofs.Splice.Nesting
import Stencil.Proofs.Template.Lookup
import Stencil.Usual

namespace Stencil

/-- Bodies of parts were put into each other too deep. -/
def Cause.IsPartLimit : Cause → Prop
  | .partTooDeep _ _ => True
  | _ => False

namespace NodeProgress

theorem not_isPartLimit_of_argument {name : Text} {expression : Option Text} {cause : Cause}
    (h : argument name expression = .error cause) : ¬ cause.IsPartLimit := by
  intro hcause
  unfold argument at h
  split at h
  next => cases h; exact hcause
  next body =>
    cases hparse : Expr.parse body with
    | error e => rw [hparse] at h; cases h; exact hcause
    | ok e => rw [hparse] at h; cases h

theorem not_isPartLimit_of_push {limit : Nat} {b : OpenBlock} {s : NodeProgress} {cause : Cause}
    (h : s.push limit b = .error cause) : ¬ cause.IsPartLimit := by
  intro hcause
  unfold push at h
  split at h
  next => cases h
  next => cases h; exact hcause

theorem not_isPartLimit_of_atDirective {limit line next : Nat} {s : NodeProgress} {name : Text}
    {expression : Option Text} {cause : Cause}
    (h : s.atDirective limit line next name expression = .error cause) : ¬ cause.IsPartLimit := by
  intro hcause
  unfold atDirective at h
  split at h
  next => cases h; exact hcause
  next =>
    split at h
    next => cases h; exact hcause
    next =>
      split at h
      next e he => cases h; exact not_isPartLimit_of_argument he hcause
      next => exact not_isPartLimit_of_push (Outcome.map_eq_error_iff.mp h) hcause
  next => exact not_isPartLimit_of_argument (Outcome.map_eq_error_iff.mp h) hcause
  next =>
    split at h
    next => cases h
    next => cases h; exact hcause
  next =>
    split at h
    next e he => cases h; exact not_isPartLimit_of_argument he hcause
    next => exact not_isPartLimit_of_push h hcause
  next =>
    unfold closePart at h
    split at h
    next => cases h
    next => cases h; exact hcause
  next =>
    unfold nextBranch at h
    split at h
    next => exact not_isPartLimit_of_argument (Outcome.map_eq_error_iff.mp h) hcause
    next =>
      split at h
      next e he => cases h; exact not_isPartLimit_of_argument he hcause
      next => cases h; exact hcause
    next => cases h; exact hcause
  next =>
    unfold lastBranch at h
    split at h
    next => cases h
    next => cases h; exact hcause
    next => cases h; exact hcause
  next =>
    unfold closeBranches at h
    split at h
    next => cases h
    next => cases h
    next => cases h; exact hcause

theorem not_isPartLimit_of_run {limit : Nat} {s : NodeProgress} {ss : List Segment} {f : Failure}
    (h : s.run limit ss = .error f) : ¬ f.cause.IsPartLimit := by
  induction ss generalizing s with
  | nil => cases h
  | cons segment ss ih =>
    rw [run] at h
    split at h
    next => exact ih h
    next hstep =>
      cases h
      unfold step at hstep
      dsimp only at hstep
      split at hstep
      next =>
        split at hstep
        next => cases hstep
        next hcause => cases hstep; exact not_isPartLimit_of_atDirective hcause
      next => cases hstep

end NodeProgress

namespace Rendering

variable {r : Rendering} {nodes : List Node} {ks : List ShownPart} {m : RenderPoint}
  {i : Inclusion} {f : Failure}

/-- Cutting and parsing a text does not put bodies into each other. -/
theorem not_isPartLimit_of_nodesOf {ds : DelimiterSet} {limit : Nat} {inPart : Bool} {t : Text}
    (h : nodesOf ds limit inPart t = .error f) : ¬ f.cause.IsPartLimit := by
  intro hcause
  unfold nodesOf at h
  split at h
  next => cases h; exact hcause
  next =>
    unfold parseNodes at h
    split at h
    next =>
      unfold NodeProgress.finish at h
      split at h
      next => cases h
      next => cases h; exact hcause
    next hrun => cases h; exact NodeProgress.not_isPartLimit_of_run hrun hcause

/-- The nodes can be carried out with the budget, as the body of `part`, wherever they stand. -/
def Works (r : Rendering) (budget : Nat) (part : Option ShownPart) (nodes : List Node) : Prop :=
  ∃ origin s, renderNodes r (expand r budget) part origin nodes = .ok s

variable {budget : Nat} {part : Option ShownPart} {n : Node} {ns : List Node}

theorem Works.tail (h : r.Works budget part (n :: ns)) : r.Works budget part ns := by
  obtain ⟨origin, s, hs⟩ := h
  obtain ⟨first, rest, -, hrest, -⟩ := renderNodes_cons_eq_ok_iff.mp hs
  exact ⟨origin, rest, hrest⟩

theorem Works.taken {test : Expr} {yes no : List Node} {line : Nat} {v : Value}
    (h : r.Works budget part (.conditional test yes no line :: ns))
    (hv : r.scope.eval test = .ok v) : r.Works budget part (if v.isTruthy then yes else no) := by
  obtain ⟨origin, s, hs⟩ := h
  obtain ⟨first, rest, hfirst, -, -⟩ := renderNodes_cons_eq_ok_iff.mp hs
  obtain ⟨w, hw, htaken⟩ := renderNode_conditional_eq_ok_iff.mp hfirst
  cases hv.symm.trans hw
  exact ⟨origin, first, htaken⟩

/-- What a directive brings in does not depend on where the directive stands, lines aside. -/
theorem Works.exists_body (h : r.Works budget m.part m.nodes) (hbrings : r.Brings m i) :
    ∃ b inner, budget = b + 1 ∧
      nodesOf r.template.own.delimiters r.limit true i.body = .ok inner ∧
      r.Works b (some i.part) inner := by
  obtain ⟨origin, s, hs⟩ := h
  cases hbrings with
  | shown hname hshown =>
    obtain ⟨first, rest, hfirst, -, -⟩ := renderNodes_cons_eq_ok_iff.mp hs
    obtain ⟨name, j, hname', hshown', hput⟩ := renderNode_showPart_eq_ok_iff.mp hfirst
    cases hname.symm.trans hname'
    obtain ⟨p, hp, rfl⟩ := shown_eq_ok_iff.mp hshown
    obtain ⟨q, hq, rfl⟩ := shown_eq_ok_iff.mp hshown'
    cases hp.symm.trans hq
    obtain ⟨b, inner, hb, hinner, hbody⟩ := expand_eq_ok_iff.mp hput
    exact ⟨b, inner, hb, hinner, _, first, hbody⟩
  | inherited hinherited =>
    obtain ⟨first, rest, hfirst, -, -⟩ := renderNodes_cons_eq_ok_iff.mp hs
    obtain ⟨j, hinherited', hput⟩ := renderNode_showParent_eq_ok_iff.mp hfirst
    obtain ⟨k, p, hk, hp, rfl⟩ := inherited_eq_ok_iff.mp hinherited
    obtain ⟨l, q, hl, hq, rfl⟩ := inherited_eq_ok_iff.mp hinherited'
    cases hk.symm.trans hl
    cases hp.symm.trans hq
    obtain ⟨b, inner, hb, hinner, hbody⟩ := expand_eq_ok_iff.mp hput
    exact ⟨b, inner, hb, hinner, _, first, hbody⟩

/-- Whatever budget the body of a part works with, the nodes at the point work with no more. -/
def Needs (r : Rendering) (k : ShownPart) (m : RenderPoint) : Prop :=
  ∀ b body inner, r.template.bodyOf? k = some body →
    nodesOf r.template.own.delimiters r.limit true body = .ok inner → r.Works b (some k) inner →
    ∃ b' ≤ b, r.Works b' m.part m.nodes

theorem Needs.next {p : RenderPoint} {k : ShownPart} (h : r.Needs k m)
    (hnext : ∀ b, r.Works b m.part m.nodes → ∃ b' ≤ b, r.Works b' p.part p.nodes) :
    r.Needs k p := by
  intro b body inner hbody hinner hworks
  obtain ⟨b', hle, hpoint⟩ := h b body inner hbody hinner hworks
  obtain ⟨b'', hle', hlast⟩ := hnext b' hpoint
  exact ⟨b'', Nat.le_trans hle' hle, hlast⟩

/-- The body of a part needs everything that is passed inside it. -/
theorem Passes.needs (h : r.Passes nodes ks m) : ∀ k ∈ ks, r.Needs k m := by
  induction h with
  | start => nofun
  | past _ _ ih =>
    intro k hk
    exact (ih k hk).next fun b hworks => ⟨b, Nat.le_refl b, hworks.tail⟩
  | branch _ hv ih =>
    intro k hk
    exact (ih k hk).next fun b hworks => ⟨b, Nat.le_refl b, hworks.taken hv⟩
  | body _ hbrings hnodes ih =>
    intro k hk
    rcases List.mem_cons.mp hk with rfl | hk
    · intro b body inner hbody hinner hworks
      cases hbrings.bodyOf?.symm.trans hbody
      cases hnodes.symm.trans hinner
      exact ⟨b, Nat.le_refl b, hworks⟩
    · refine (ih k hk).next fun b hworks => ?_
      obtain ⟨b', inner, rfl, hinner, hbody⟩ := hworks.exists_body hbrings
      cases hnodes.symm.trans hinner
      exact ⟨b', Nat.le_succ b', hbody⟩

theorem Passes.works {s : Splice} (hs : r.render nodes = .ok s) (h : r.Passes nodes ks m) :
    r.Works m.budget m.part m.nodes := by
  induction h with
  | start => exact ⟨_, s, hs⟩
  | past _ _ ih => exact ih.tail
  | branch _ hv ih => exact ih.taken hv
  | body _ hbrings hnodes ih =>
    obtain ⟨b, inner, hb, hinner, hbody⟩ := ih.exists_body hbrings
    cases hnodes.symm.trans hinner
    cases hb
    exact hbody

-- A body that comes up again inside itself needs one body more than it has: whatever budget it
-- works with, it works with less.
theorem Passes.not_works (h : r.Passes nodes ks m) (hbrings : r.Brings m i) (hmem : i.part ∈ ks)
    {inner : List Node} (hinner : nodesOf r.template.own.delimiters r.limit true i.body = .ok inner)
    (b : Nat) : ¬ r.Works b (some i.part) inner := by
  induction b using Nat.strongRecOn with
  | ind b ih =>
    intro hworks
    obtain ⟨b', hle, hpoint⟩ := h.needs i.part hmem b i.body inner hbrings.bodyOf? hinner hworks
    obtain ⟨b'', inner', rfl, hinner', hbody⟩ := hpoint.exists_body hbrings
    cases hinner.symm.trans hinner'
    exact ih b'' hle hbody

theorem not_reenters_of_render {s : Splice} (hs : r.render nodes = .ok s) :
    ¬ r.Reenters nodes := by
  rintro ⟨ks, m, i, hpasses, hbrings, hmem⟩
  obtain ⟨b, inner, -, hinner, hbody⟩ := (hpasses.works hs).exists_body hbrings
  exact hpasses.not_works hbrings hmem hinner b hbody

/-- The limit on bodies was reported at a point that was passed, where no budget was left. -/
def RanOut (r : Rendering) (nodes : List Node) : Prop :=
  ∃ ks m i, r.Passes nodes ks m ∧ m.budget = 0 ∧ r.Brings m i

theorem ranOut_of_renderNodes (hcause : f.cause.IsPartLimit) {budget : Nat}
    (hexpand : ∀ {ks part origin ns i}, r.Passes nodes ks ⟨budget, part, origin, ns⟩ →
      r.Brings ⟨budget, part, origin, ns⟩ i → expand r budget i = .error f → r.RanOut nodes)
    {part : Option ShownPart} {origin : Origin} {ns : List Node}
    (hpasses : r.Passes nodes ks ⟨budget, part, origin, ns⟩)
    (h : renderNodes r (expand r budget) part origin ns = .error f) : r.RanOut nodes := by
  -- The node at hand fails, or it is passed and the rest fails.
  have hsplit : ∀ {n ns}, r.Passes nodes ks ⟨budget, part, origin, n :: ns⟩ →
      renderNodes r (expand r budget) part origin (n :: ns) = .error f →
      renderNode r (expand r budget) part origin n = .error f ∨
        r.Passes nodes ks ⟨budget, part, origin, ns⟩ ∧
          renderNodes r (expand r budget) part origin ns = .error f := by
    intro n ns hpasses h
    rw [renderNodes] at h
    split at h
    next f' hn => cases h; exact .inl hn
    next first hn =>
      split at h
      next f' hrest => cases h; exact .inr ⟨hpasses.past hn, hrest⟩
      next => cases h
  induction ns using nodesInduction with
  | nil => cases h
  | text t line ns ih =>
    rcases hsplit hpasses h with hn | ⟨hpast, hrest⟩
    · cases hn
    · exact ih hpast hrest
  | part name body children line bodyLine ns _ ih =>
    rcases hsplit hpasses h with hn | ⟨hpast, hrest⟩
    · cases hn
    · exact ih hpast hrest
  | showPart e line ns ih =>
    rcases hsplit hpasses h with hn | ⟨hpast, hrest⟩
    · rw [renderNode] at hn
      split at hn
      next => cases hn; exact hcause.elim
      next name hname =>
        split at hn
        next cause hshown =>
          cases hn
          unfold Rendering.shown at hshown
          split at hshown
          next => cases hshown; exact hcause.elim
          next => cases hshown
        next i hshown => exact hexpand hpasses (.shown hname hshown) hn
    · exact ih hpast hrest
  | showParent line ns ih =>
    rcases hsplit hpasses h with hn | ⟨hpast, hrest⟩
    · rw [renderNode] at hn
      split at hn
      next cause hinherited =>
        cases hn
        unfold Rendering.inherited at hinherited
        split at hinherited
        next => cases hinherited; exact hcause.elim
        next =>
          split at hinherited
          next => cases hinherited; exact hcause.elim
          next => cases hinherited
      next i hinherited => exact hexpand hpasses (.inherited hinherited) hn
    · exact ih hpast hrest
  | conditional test yes no line ns hyes hno ih =>
    rcases hsplit hpasses h with hn | ⟨hpast, hrest⟩
    · rw [renderNode] at hn
      split at hn
      next => cases hn; exact hcause.elim
      next v hv =>
        have htaken := hpasses.branch hv
        split at hn
        next hholds => rw [if_pos hholds] at htaken; exact hyes htaken hn
        next hfails => rw [if_neg hfails] at htaken; exact hno htaken hn
    · exact ih hpast hrest

/-- Nothing but a body that has no budget left is reported as too deep. -/
theorem Passes.ranOut (hcause : f.cause.IsPartLimit) (budget : Nat) {part : Option ShownPart}
    {origin : Origin} {ns : List Node} (hpasses : r.Passes nodes ks ⟨budget, part, origin, ns⟩)
    (h : renderNodes r (expand r budget) part origin ns = .error f) : r.RanOut nodes := by
  induction budget generalizing ks part origin ns with
  | zero =>
    refine ranOut_of_renderNodes hcause (fun hpasses hbrings _ => ?_) hpasses h
    exact ⟨_, _, _, hpasses, rfl, hbrings⟩
  | succ b ih =>
    refine ranOut_of_renderNodes hcause (fun {ks part origin ns i} hpasses hbrings hput => ?_)
      hpasses h
    rw [expand] at hput
    split at hput
    next f' hnodes =>
      cases hput
      have hfree := not_isPartLimit_of_nodesOf hnodes
      exact absurd hcause hfree
    next inner hnodes => exact ih (hpasses.body hbrings hnodes) hput

theorem reenters_of_render (hcause : f.cause.IsPartLimit) (h : r.render nodes = .error f)
    (hcount : r.template.partCount ≤ r.limit) : r.Reenters nodes := by
  obtain ⟨ks, m, i, hpasses, hbudget, hbrings⟩ := Passes.ranOut hcause r.limit .start h
  exact hpasses.reenters_of_count_le hbudget hbrings hcount

end Rendering

theorem not_isPartLimit_of_nameParts {s : Scope} {ds : List PartDefinition}
    {ps : List NamedPart} {f : Failure} (h : nameParts s ds = (ps, some f)) :
    ¬ f.cause.IsPartLimit := by
  intro hcause
  induction ds generalizing ps with
  | nil => cases h
  | cons d ds ih =>
    rw [nameParts] at h
    split at h
    next => cases h; exact hcause
    next =>
      cases hrest : nameParts s ds with
      | mk named failure =>
        rw [hrest] at h
        cases h
        exact ih hrest

/-- Bodies are put in place only when all parts are registered. -/
theorem Template.exists_render_of_isPartLimit {t u : Template} {fs : Functions} {limits : Limits}
    {contents : Text} {f : Failure} (hcause : f.cause.IsPartLimit)
    (h : t.runDirectives fs limits contents = (u, .error f)) :
    ∃ nodes parts,
      Rendering.nodesOf t.own.delimiters limits.directiveDepth false contents = .ok nodes ∧
      nameParts (t.scope fs) (definitionsIn nodes) = (parts, none) ∧ t.register parts = u ∧
      (u.rendering fs limits.directiveDepth parts).render nodes = .error f := by
  unfold runDirectives at h
  split at h
  next hnodes => cases h; exact absurd hcause (Rendering.not_isPartLimit_of_nodesOf hnodes)
  next nodes hnodes =>
    cases hparts : nameParts (t.scope fs) (definitionsIn nodes) with
    | mk parts failure =>
      rw [hparts] at h
      cases failure with
      | some f' => cases h; exact absurd hcause (not_isPartLimit_of_nameParts hparts)
      | none =>
        obtain ⟨rfl, hrender⟩ := Prod.mk.inj h
        exact ⟨nodes, parts, hnodes, hparts, rfl, hrender⟩

namespace Compiler

/-- Directives that could be carried out have put no body of a part into itself. And where every
part in sight could stand inside all the others, the limit on bodies is reported for nothing
else. -/
theorem recursion_caught (c : Compiler) (t : Template) (contents : Text) :
    (∀ out, (c.compileDirectives t contents).2 = .ok out →
        ¬ t.Reenters c.functions c.limits contents) ∧
      ∀ f, (c.compileDirectives t contents).2 = .error f → f.cause.IsPartLimit →
        (c.compileDirectives t contents).1.partCount ≤ c.limits.directiveDepth →
        t.Reenters c.functions c.limits contents := by
  rw [compileDirectives]
  cases hrun : t.runDirectives c.functions c.limits contents with
  | mk u result =>
    constructor
    · rintro out h ⟨nodes, parts, hnodes, hparts, hreenters⟩
      obtain ⟨s, rfl, -⟩ := Outcome.map_eq_ok_iff.mp h
      obtain ⟨nodes', parts', hnodes', hparts', rfl, hs⟩ := Template.exists_of_runDirectives hrun
      cases hnodes.symm.trans hnodes'
      cases hparts.symm.trans hparts'
      exact Rendering.not_reenters_of_render hs hreenters
    · intro f h hcause hcount
      obtain rfl := Outcome.map_eq_error_iff.mp h
      obtain ⟨nodes, parts, hnodes, hparts, rfl, hf⟩ :=
        Template.exists_render_of_isPartLimit hcause hrun
      exact ⟨nodes, parts, hnodes, hparts, Rendering.reenters_of_render hcause hf hcount⟩

/-- A part that goes on with the one that it hides, if it is told to, which shows it again. -/
def mirrors (go : Bool) : Template :=
  ⟨{ contents :=
       "<% part(1) %>a<% if($go) %><% parent %><% endif %><% endpart %><% show(1) %>".toList,
     vars := .ofList [("go".toList, .bool go)] },
    [{ parts := .ofList [("1".toList, "b<% show(1) %>".toList)] }]⟩

/-- Two bodies may stand inside each other, as many as there are. The part is fine while it does not
go on, and when it does the limit is reported. -/
theorem recursion_caught_mirrors :
    let c : Compiler := { Compiler.usual with limits := ⟨1, 2⟩ }
    let contents := (mirrors true).own.contents
    (c.compileDirectives (mirrors false) contents).2 = .ok "a".toList ∧
      ¬ (mirrors false).Reenters c.functions c.limits contents ∧
      (c.compileDirectives (mirrors true) contents).2 =
        .error ⟨.partTooDeep "1".toList 2, 1⟩ ∧
      (c.compileDirectives (mirrors true) contents).1.partCount = 2 ∧
      (mirrors true).Reenters c.functions c.limits contents := by
  intro c contents
  have hfine : (c.compileDirectives (mirrors false) contents).2 = .ok "a".toList := by
    decide +kernel
  have hdeep : (c.compileDirectives (mirrors true) contents).2 =
      .error ⟨.partTooDeep "1".toList 2, 1⟩ := by
    decide +kernel
  have hcount : (c.compileDirectives (mirrors true) contents).1.partCount = 2 := by
    decide +kernel
  refine ⟨hfine, ?_, hdeep, hcount, ?_⟩
  · exact (recursion_caught c (mirrors false) contents).1 _ hfine
  · exact (recursion_caught c (mirrors true) contents).2 _ hdeep trivial (Nat.le_of_eq hcount)

end Compiler

end Stencil
