/- Where carrying out directives fails, and on which line of the contents that is reported. -/
import Stencil.Proofs.Node.ErrorLines
import Stencil.Proofs.Node.Heads
import Stencil.Proofs.Splice.LineMap

namespace Stencil

/-- Where a fault shows in a text: at a directive, at the definition of a part, or on a line that
was reported when the text could not be read. -/
inductive Spot where
  | directive (p : PlacedNode)
  | definition (d : PlacedDefinition)
  | line (text : Text) (n : Nat)

/-- A fault of the text that stands at the site. -/
structure Fault where
  cause : Cause
  site : Site
  spot : Spot

/-- What follows a text that the contents start with is on a line of the contents. -/
theorem Text.HasLine.of_front {contents before rear : Text} (h : before ++ rear <+: contents) :
    HasLine 1 contents before.endLine :=
  (HasLine.last 1 before).mono ((List.prefix_append _ _).trans h)

namespace Fault

/-- The line of the contents where the fault shows. Outside the contents that is the line of the
directive which brought the text in. -/
def line (φ : Fault) : Nat :=
  match φ.site, φ.spot with
  | .contents outer, .directive p => (outer ++ p.before).endLine
  | .contents outer, .definition d => (outer ++ d.before).endLine
  | .contents outer, .line _ n => outer.newlines + n
  | .elsewhere outer, _ => outer.endLine

def failure (φ : Fault) : Failure := ⟨φ.cause, φ.line⟩

/-- What is at fault stands in the contents, or else the directive that brought in the text which
is. -/
def Stands (contents : Text) (φ : Fault) : Prop :=
  match φ.site, φ.spot with
  | .contents outer, .directive p =>
    ∃ s : Segment, s.Begins p ∧ outer ++ p.before ++ s.raw <+: contents
  | .contents outer, .definition d =>
    ∃ s : Segment, s.Requires .part d.name ∧ outer ++ d.before ++ s.raw <+: contents
  | .contents outer, .line text n => outer ++ text <+: contents ∧ Text.HasLine 1 text n
  | .elsewhere outer, _ => ∃ s : Segment, s.Brings ∧ outer ++ s.raw <+: contents

/-- What is at fault stands on a line of the contents. -/
theorem Stands.hasLine {contents : Text} {φ : Fault} (h : φ.Stands contents) :
    Text.HasLine 1 contents φ.line := by
  obtain ⟨cause, site, spot⟩ := φ
  cases site with
  | contents outer =>
    cases spot with
    | directive p =>
      obtain ⟨s, -, hs⟩ := h
      exact .of_front hs
    | definition d =>
      obtain ⟨s, -, hs⟩ := h
      exact .of_front hs
    | line text n =>
      obtain ⟨htext, hfirst, hlast⟩ := h
      refine Text.HasLine.mono (Text.HasLine.append_left ⟨?_, ?_⟩) htext
      · show 1 + outer.newlines ≤ outer.newlines + n
        omega
      · show outer.newlines + n ≤ 1 + outer.newlines + text.newlines
        omega
  | elsewhere outer =>
    obtain ⟨s, -, hs⟩ := h
    exact .of_front hs

end Fault

/-- A body that is put in place, and the site where it stands. -/
structure PlacedBody where
  part : ShownPart
  site : Site
  body : Text

namespace Tracing

/-- The node puts this body in place. -/
inductive Includes (g : Tracing) : Option ShownPart → Site → PlacedNode → PlacedBody → Prop
  | shown {part σ e before name p} : g.scope.nameOf e = .ok name →
      g.template.part? name = some p →
      Includes g part σ (.showPart e before)
        ⟨⟨name, p.level⟩, .ofBody (g.bodyStart? name) (σ.before before), p.body⟩
  | inherited {shown σ before p} :
      g.template.inheritedPart? shown.level shown.name = some p →
      Includes g (some shown) σ (.showParent before)
        ⟨⟨shown.name, p.level⟩, .elsewhere (σ.before before), p.body⟩

/-- The node fails by itself. -/
inductive Refuses (g : Tracing) : Option ShownPart → PlacedNode → Cause → Prop
  | name {part e before err} : g.scope.nameOf e = .error err →
      Refuses g part (.showPart e before) (.evaluation err)
  | undefined {part e before name} : g.scope.nameOf e = .ok name →
      g.template.part? name = none → Refuses g part (.showPart e before) (.undefinedPart name)
  | outside {before} : Refuses g none (.showParent before) .parentOutsidePart
  | notInherited {shown before} : g.template.inheritedPart? shown.level shown.name = none →
      Refuses g (some shown) (.showParent before) (.noInheritedPart shown.name)
  | test {part test yes no before err} : g.scope.eval test = .error err →
      Refuses g part (.conditional test yes no before) (.evaluation err)

/-- The body is laid out as these nodes. -/
def Reads (g : Tracing) (body : Text) (ps : List PlacedNode) : Prop :=
  ∃ ss, segments g.template.own.delimiters body = .ok ss ∧ Items true g.limit [] ss ps

/-- The nodes can be carried out when `budget` bodies can still be put into each other. -/
inductive Works (g : Tracing) : Nat → Option ShownPart → Site → List PlacedNode → Prop
  | nil {budget part σ} : Works g budget part σ []
  | text {budget part σ t before ps} : Works g budget part σ ps →
      Works g budget part σ (.text t before :: ps)
  | part {budget part σ name body children before bodyBefore ps} : Works g budget part σ ps →
      Works g budget part σ (.part name body children before bodyBefore :: ps)
  | body {budget part σ p i qs ps} : g.Includes part σ p i → g.Reads i.body qs →
      Works g budget (some i.part) i.site qs → Works g (budget + 1) part σ ps →
      Works g (budget + 1) part σ (p :: ps)
  | conditional {budget part σ test yes no before v ps} : g.scope.eval test = .ok v →
      Works g budget part σ (if v.isTruthy then yes else no) → Works g budget part σ ps →
      Works g budget part σ (.conditional test yes no before :: ps)

/-- The first fault when the nodes are carried out. -/
inductive Faults (g : Tracing) : Nat → Option ShownPart → Site → List PlacedNode → Fault → Prop
  | later {budget part σ p ps φ} : Works g budget part σ [p] → Faults g budget part σ ps φ →
      Faults g budget part σ (p :: ps) φ
  | refused {budget part σ p ps cause} : g.Refuses part p cause →
      Faults g budget part σ (p :: ps) ⟨cause, σ, .directive p⟩
  | tooDeep {part σ p i ps} : g.Includes part σ p i →
      Faults g 0 part σ (p :: ps) ⟨.partTooDeep i.part.name g.limit, σ, .directive p⟩
  | unreadable {budget part σ p i ps f} : g.Includes part σ p i →
      Rendering.nodesOf g.template.own.delimiters g.limit true i.body = .error f →
      Faults g (budget + 1) part σ (p :: ps) ⟨f.cause, i.site, .line i.body f.line⟩
  | inside {budget part σ p i qs ps φ} : g.Includes part σ p i → g.Reads i.body qs →
      Faults g budget (some i.part) i.site qs φ → Faults g (budget + 1) part σ (p :: ps) φ
  | branch {budget part σ test yes no before v ps φ} : g.scope.eval test = .ok v →
      Faults g budget part σ (if v.isTruthy then yes else no) φ →
      Faults g budget part σ (.conditional test yes no before :: ps) φ

variable {g : Tracing} {budget : Nat} {part : Option ShownPart} {σ : Site} {p : PlacedNode}
  {ps qs : List PlacedNode} {i : PlacedBody} {φ : Fault}

theorem Works.cons (hp : g.Works budget part σ [p]) (hps : g.Works budget part σ ps) :
    g.Works budget part σ (p :: ps) := by
  cases hp with
  | text => exact .text hps
  | part => exact .part hps
  | body hincludes hreads hbody => exact .body hincludes hreads hbody hps
  | conditional hv htaken => exact .conditional hv htaken hps

theorem nodesOf_of_reads (h : g.Reads i.body qs) :
    Rendering.nodesOf g.template.own.delimiters g.limit true i.body =
      .ok (PlacedNode.nodes qs) := by
  obtain ⟨ss, hss, hqs⟩ := h
  exact nodesOf_of_items hss hqs

/-- The nodes either can be carried out or have a first fault. -/
def Settled (g : Tracing) (budget : Nat) (part : Option ShownPart) (σ : Site)
    (ps : List PlacedNode) : Prop :=
  g.Works budget part σ ps ∨ ∃ φ, g.Faults budget part σ ps φ

theorem Settled.of_works (hp : g.Works budget part σ [p]) (h : g.Settled budget part σ ps) :
    g.Settled budget part σ (p :: ps) := by
  rcases h with hworks | ⟨φ, hfaults⟩
  · exact .inl (hp.cons hworks)
  · exact .inr ⟨φ, .later hp hfaults⟩

theorem Settled.of_includes
    (hbodies : ∀ b, budget = b + 1 → ∀ part σ ps, g.Settled b part σ ps)
    (hincludes : g.Includes part σ p i) (h : g.Settled budget part σ ps) :
    g.Settled budget part σ (p :: ps) := by
  cases budget with
  | zero => exact .inr ⟨_, .tooDeep hincludes⟩
  | succ b =>
    cases hnodes : Rendering.nodesOf g.template.own.delimiters g.limit true i.body with
    | error f => exact .inr ⟨_, .unreadable hincludes hnodes⟩
    | ok nodes =>
      obtain ⟨ss, qs, hss, hqs, -⟩ := nodesOf_eq_ok_iff.mp hnodes
      have hreads : g.Reads i.body qs := ⟨ss, hss, hqs⟩
      rcases hbodies b rfl (some i.part) i.site qs with hbody | ⟨φ, hfaults⟩
      · exact h.of_works (.body hincludes hreads hbody .nil)
      · exact .inr ⟨φ, .inside hincludes hreads hfaults⟩

-- The budget falls only where a body is put in place, so bodies are left to a hypothesis and the
-- induction is on the nodes.
theorem settled_of_bodies
    (hbodies : ∀ b, budget = b + 1 → ∀ part σ ps, g.Settled b part σ ps) :
    g.Settled budget part σ ps := by
  induction ps using PlacedNode.listInduction with
  | nil => exact .inl .nil
  | text t before ps ih => exact ih.of_works (.text .nil)
  | part name body children before bodyBefore ps ih => exact ih.of_works (.part .nil)
  | showPart e before ps ih =>
    cases hname : g.scope.nameOf e with
    | error err => exact .inr ⟨_, .refused (.name hname)⟩
    | ok name =>
      cases hp : g.template.part? name with
      | none => exact .inr ⟨_, .refused (.undefined hname hp)⟩
      | some p => exact ih.of_includes hbodies (.shown hname hp)
  | showParent before ps ih =>
    cases part with
    | none => exact .inr ⟨_, .refused .outside⟩
    | some shown =>
      cases hp : g.template.inheritedPart? shown.level shown.name with
      | none => exact .inr ⟨_, .refused (.notInherited hp)⟩
      | some p => exact ih.of_includes hbodies (.inherited hp)
  | conditional test yes no before ps hyes hno ih =>
    cases hv : g.scope.eval test with
    | error err => exact .inr ⟨_, .refused (.test hv)⟩
    | ok v =>
      have htaken : g.Settled budget part σ (if v.isTruthy then yes else no) := by
        split
        next => exact hyes
        next => exact hno
      rcases htaken with hworks | ⟨φ, hfaults⟩
      · exact ih.of_works (.conditional hv hworks .nil)
      · exact .inr ⟨φ, .branch hv hfaults⟩

theorem settled (g : Tracing) (budget : Nat) (part : Option ShownPart) (σ : Site)
    (ps : List PlacedNode) : g.Settled budget part σ ps := by
  induction budget generalizing part σ ps with
  | zero =>
    apply settled_of_bodies
    intro b hb
    cases hb
  | succ budget ih =>
    apply settled_of_bodies
    intro b hb
    cases hb
    exact ih

variable {r : Rendering}

theorem Renders.renderNode_of_includes (hr : g.Renders r)
    {put : Inclusion → Except Failure Splice} (h : g.Includes part σ p i) :
    r.renderNode put part σ.origin p.node =
      put ⟨i.part, i.body, i.site.origin, (σ.before p.before).endLine⟩ := by
  cases h with
  | @shown part σ e before name p hname hp =>
    have hshown : r.shown name (σ.before before).endLine = .ok
        ⟨⟨name, p.level⟩, p.body,
          (Site.ofBody (g.bodyStart? name) (σ.before before)).origin,
          (σ.before before).endLine⟩ := by
      rw [← hr.origin _ hp]
      exact Rendering.shown_eq_ok_iff.mpr ⟨p, hr.template ▸ hp, rfl⟩
    rw [PlacedNode.node, Rendering.renderNode, hr.scope, hname, Site.line_origin]
    dsimp only
    rw [hshown]
    rfl
  | @inherited shown σ before p hp =>
    have hinherited : r.inherited (σ.before before).endLine (some shown) = .ok
        ⟨⟨shown.name, p.level⟩, p.body, .fixed (σ.before before).endLine,
          (σ.before before).endLine⟩ :=
      Rendering.inherited_eq_ok_iff.mpr ⟨shown, p, rfl, hr.template ▸ hp, rfl⟩
    rw [PlacedNode.node, Rendering.renderNode, Site.line_origin, hinherited]
    rfl

theorem Renders.renderNode_of_refuses (hr : g.Renders r)
    {put : Inclusion → Except Failure Splice} {cause : Cause} (h : g.Refuses part p cause) :
    r.renderNode put part σ.origin p.node = .error ⟨cause, (σ.before p.before).endLine⟩ := by
  cases h with
  | name hname =>
    rw [PlacedNode.node, Rendering.renderNode, hr.scope, hname, Site.line_origin]
    rfl
  | undefined hname hp =>
    rw [PlacedNode.node, Rendering.renderNode, hr.scope, hname, Site.line_origin]
    dsimp only
    rw [Rendering.shown, hr.template, hp]
    rfl
  | outside =>
    rw [PlacedNode.node, Rendering.renderNode, Site.line_origin]
    rfl
  | notInherited hp =>
    rw [PlacedNode.node, Rendering.renderNode, Site.line_origin, Rendering.inherited, hr.template,
      hp]
    rfl
  | test hv =>
    rw [PlacedNode.node, Rendering.renderNode, hr.scope, hv, Site.line_origin]
    rfl

theorem Renders.renderNode_of_eval (hr : g.Renders r) {test : Expr} {yes no : List PlacedNode}
    {before : Text} {v : Value} (hv : g.scope.eval test = .ok v) :
    r.renderNode (r.expand budget) part σ.origin
        (PlacedNode.conditional test yes no before).node =
      r.renderAt budget part σ (if v.isTruthy then yes else no) := by
  rw [PlacedNode.node, Rendering.renderNode, hr.scope, hv]
  dsimp only
  split
  next => rfl
  next => rfl

/-- Bodies that can be read are carried out at their own sites. -/
theorem Renders.expand_of_reads (hr : g.Renders r) (h : g.Reads i.body qs) (line : Nat) :
    r.expand (budget + 1) ⟨i.part, i.body, i.site.origin, line⟩ =
      r.renderAt budget (some i.part) i.site qs := by
  rw [Rendering.expand, hr.template, hr.limit, nodesOf_of_reads h]

theorem Works.exists_render (hr : g.Renders r) (h : g.Works budget part σ ps) :
    ∃ s, r.renderAt budget part σ ps = .ok s := by
  induction h with
  | nil => exact ⟨[], rfl⟩
  | text _ ih =>
    obtain ⟨rest, hrest⟩ := ih
    exact ⟨_, Rendering.renderNodes_cons_eq_ok_iff.mpr ⟨_, rest, rfl, hrest, rfl⟩⟩
  | part _ ih =>
    obtain ⟨rest, hrest⟩ := ih
    exact ⟨_, Rendering.renderNodes_cons_eq_ok_iff.mpr ⟨_, rest, rfl, hrest, rfl⟩⟩
  | body hincludes hreads _ _ ihbody ih =>
    obtain ⟨first, hfirst⟩ := ihbody
    obtain ⟨rest, hrest⟩ := ih
    refine ⟨_, Rendering.renderNodes_cons_eq_ok_iff.mpr ⟨first, rest, ?_, hrest, rfl⟩⟩
    rw [hr.renderNode_of_includes hincludes, hr.expand_of_reads hreads, hfirst]
  | conditional hv _ _ ihtaken ih =>
    obtain ⟨first, hfirst⟩ := ihtaken
    obtain ⟨rest, hrest⟩ := ih
    refine ⟨_, Rendering.renderNodes_cons_eq_ok_iff.mpr ⟨first, rest, ?_, hrest, rfl⟩⟩
    rw [hr.renderNode_of_eval hv, hfirst]

end Tracing

theorem Rendering.renderNodes_cons_eq_error_iff {r : Rendering}
    {put : Inclusion → Except Failure Splice} {part : Option ShownPart} {origin : Origin}
    {n : Node} {ns : List Node} {f : Failure} :
    renderNodes r put part origin (n :: ns) = .error f ↔
      renderNode r put part origin n = .error f ∨
        ∃ first, renderNode r put part origin n = .ok first ∧
          renderNodes r put part origin ns = .error f := by
  rw [renderNodes]
  cases renderNode r put part origin n with
  | error f' => simp
  | ok first =>
    cases renderNodes r put part origin ns with
    | error f' => simp
    | ok rest => simp

namespace Tracing

variable {g : Tracing} {budget : Nat} {part : Option ShownPart} {σ : Site} {p : PlacedNode}
  {ps : List PlacedNode} {i : PlacedBody} {φ : Fault} {r : Rendering} {cause : Cause}

theorem failure_directive (σ : Site) (p : PlacedNode) (cause : Cause) :
    Fault.failure ⟨cause, σ, .directive p⟩ = ⟨cause, (σ.before p.before).endLine⟩ := by
  cases σ <;> rfl

theorem failure_line (σ : Site) (t : Text) {f : Failure} (h : 1 ≤ f.line) :
    Fault.failure ⟨f.cause, σ, .line t f.line⟩ = σ.origin.relocate f := by
  cases σ with
  | contents outer =>
    show (⟨f.cause, outer.newlines + f.line⟩ : Failure) =
      ⟨f.cause, 1 + outer.newlines + (f.line - 1)⟩
    congr 1
    omega
  | elsewhere outer => rfl

/-- The first fault is the one that is reported, on its line. -/
theorem Faults.render (hr : g.Renders r) (h : g.Faults budget part σ ps φ) :
    r.renderAt budget part σ ps = .error φ.failure := by
  induction h with
  | later hworks _ ih =>
    obtain ⟨s, hs⟩ := hworks.exists_render hr
    obtain ⟨first, -, hfirst, -, -⟩ := Rendering.renderNodes_cons_eq_ok_iff.mp hs
    exact Rendering.renderNodes_cons_eq_error_iff.mpr (.inr ⟨first, hfirst, ih⟩)
  | refused hrefuses =>
    apply Rendering.renderNodes_cons_eq_error_iff.mpr
    rw [failure_directive]
    exact .inl (hr.renderNode_of_refuses hrefuses)
  | tooDeep hincludes =>
    apply Rendering.renderNodes_cons_eq_error_iff.mpr
    rw [failure_directive, hr.renderNode_of_includes hincludes, Rendering.expand, hr.limit]
    exact .inl rfl
  | unreadable hincludes hnodes =>
    apply Rendering.renderNodes_cons_eq_error_iff.mpr
    rw [failure_line _ _ (hasLine_of_nodesOf hnodes).first_le, hr.renderNode_of_includes hincludes,
      Rendering.expand, hr.template, hr.limit, hnodes]
    exact .inl rfl
  | inside hincludes hreads _ ih =>
    apply Rendering.renderNodes_cons_eq_error_iff.mpr
    rw [hr.renderNode_of_includes hincludes, hr.expand_of_reads hreads]
    exact .inl ih
  | branch hv _ ih =>
    apply Rendering.renderNodes_cons_eq_error_iff.mpr
    rw [hr.renderNode_of_eval hv]
    exact .inl ih

theorem works_of_render (hr : g.Renders r) {s : Splice}
    (hs : r.renderAt budget part σ ps = .ok s) : g.Works budget part σ ps := by
  rcases g.settled budget part σ ps with hworks | ⟨φ, hfaults⟩
  · exact hworks
  · cases hs.symm.trans (hfaults.render hr)

theorem exists_faults_of_render (hr : g.Renders r) {f : Failure}
    (h : r.renderAt budget part σ ps = .error f) :
    ∃ φ, g.Faults budget part σ ps φ ∧ φ.failure = f := by
  rcases g.settled budget part σ ps with hworks | ⟨φ, hfaults⟩
  · obtain ⟨s, hs⟩ := hworks.exists_render hr
    cases h.symm.trans hs
  · exact ⟨φ, hfaults, Except.error.inj ((hfaults.render hr).symm.trans h)⟩

variable {contents text : Text}

theorem Includes.holds (hg : g.BodiesStand contents) (h : g.Includes part σ p i)
    (hσ : σ.Holds contents text) (hps : BeginIn text (p :: ps)) :
    i.site.Holds contents i.body := by
  obtain ⟨s, hs, hwhole⟩ := hps.exists_head
  cases h with
  | shown _ hp =>
    obtain ⟨x, hs, -⟩ := hs
    exact hg.ofBody hσ (.inl ⟨_, hs⟩) hwhole hp
  | inherited => exact hσ.directive (.inr hs) hwhole _

theorem stands_directive (hσ : σ.Holds contents text) (hps : BeginIn text (p :: ps)) :
    Fault.Stands contents ⟨cause, σ, .directive p⟩ := by
  cases σ with
  | contents outer =>
    obtain ⟨s, hs, hwhole⟩ := hps.exists_head
    have hcontents := ((List.prefix_append_right_inj outer).mpr hwhole).trans hσ
    rw [← List.append_assoc] at hcontents
    exact ⟨s, hs, hcontents⟩
  | elsewhere outer => exact hσ

theorem stands_line (hσ : σ.Holds contents text) {n : Nat} (hn : text.HasLine 1 n) :
    Fault.Stands contents ⟨cause, σ, .line text n⟩ := by
  cases σ with
  | contents outer => exact ⟨hσ, hn⟩
  | elsewhere outer => exact hσ

/-- What is at fault stands where the fault says. -/
theorem Faults.stands (hg : g.BodiesStand contents) (h : g.Faults budget part σ ps φ)
    (hσ : σ.Holds contents text) (hps : BeginIn text ps) : φ.Stands contents := by
  induction h generalizing text with
  | later _ _ ih => exact ih hσ hps.tail
  | refused => exact stands_directive hσ hps
  | tooDeep => exact stands_directive hσ hps
  | unreadable hincludes hnodes =>
    exact stands_line (hincludes.holds hg hσ hps) (hasLine_of_nodesOf hnodes)
  | inside hincludes hreads _ ih =>
    obtain ⟨ss, hss, hqs⟩ := hreads
    exact ih (hincludes.holds hg hσ hps) (beginIn_of_segments hss hqs)
  | branch _ _ ih => exact ih hσ hps.taken

end Tracing

end Stencil
