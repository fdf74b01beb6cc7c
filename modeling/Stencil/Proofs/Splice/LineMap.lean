/- Every character of an output has the line of the contents that it comes from. -/
import Stencil.Proofs.Splice.Lines
import Stencil.Proofs.Splice.Provenance
import Stencil.Proofs.Splice.Rendering
import Stencil.Proofs.Template.Lookup
import Stencil.Usual

namespace Stencil

namespace Site

def origin : Site → Origin
  | .contents before => .source before.endLine
  | .elsewhere before => .fixed before.endLine

theorem line_origin (σ : Site) (inner : Text) :
    σ.origin.line inner.endLine = (σ.before inner).endLine := by
  cases σ with
  | contents outer =>
    show outer.endLine + (1 + inner.newlines - 1) = (outer ++ inner).endLine
    rw [Text.endLine_append]
    omega
  | elsewhere _ => rfl

theorem advances_origin (σ : Site) : σ.origin.advances = σ.isContents := by
  cases σ <;> rfl

theorem char_marks (σ : Site) (inner t : Text) : (σ.marks inner t).map Mark.char = t := by
  induction t generalizing inner with
  | nil => rfl
  | cons c cs ih => rw [marks, List.map_cons, ih]

theorem lines_marks (σ : Site) (inner t : Text) :
    Chunk.lines ⟨t, (σ.before inner).endLine, σ.isContents⟩ =
      (σ.marks inner t).map fun m => m.before.endLine := by
  induction t generalizing inner with
  | nil => rfl
  | cons c cs ih =>
    rw [Chunk.lines_cons, marks, List.map_cons, ← ih]
    cases σ with
    | contents outer =>
      show _ :: Chunk.lines ⟨cs, (outer ++ inner).endLine + Text.newlines [c], true⟩ =
        _ :: Chunk.lines ⟨cs, (outer ++ (inner ++ [c])).endLine, true⟩
      rw [← List.append_assoc, Text.endLine_append (outer ++ inner)]
    | elsewhere _ => rfl

end Site

/-- The characters of the splice are those, on the lines where they come from. -/
structure Splice.Shows (s : Splice) (ms : List Mark) : Prop where
  text : s.text = ms.map Mark.char
  lines : s.lines = ms.map fun m => m.before.endLine

theorem Splice.Shows.append {s u : Splice} {ms ns : List Mark} (hs : s.Shows ms) (hu : u.Shows ns) :
    (s ++ u).Shows (ms ++ ns) where
  text := by rw [Splice.text_append, List.map_append, hs.text, hu.text]
  lines := by rw [Splice.lines_append, List.map_append, hs.lines, hu.lines]

theorem Site.shows_marks (σ : Site) (inner t : Text) :
    Splice.Shows [⟨t, σ.origin.line inner.endLine, σ.origin.advances⟩] (σ.marks inner t) where
  text := by rw [σ.char_marks]; exact List.append_nil t
  lines := by
    rw [σ.line_origin, σ.advances_origin, ← σ.lines_marks]
    exact List.append_nil _

/-- A rendering of what is traced, which knows from the contents where bodies start. -/
structure Tracing.Renders (g : Tracing) (r : Rendering) : Prop where
  template : r.template = g.template
  scope : r.scope = g.scope
  limit : r.limit = g.limit
  origin : ∀ {name p} (directive : Text), g.template.part? name = some p →
    r.originOf name p.level directive.endLine = (Site.ofBody (g.bodyStart? name) directive).origin

variable {g : Tracing} {r : Rendering} {part : Option ShownPart} {σ : Site} {before : Text}
  {ps : List PlacedNode} {ms : List Mark} {budget : Nat} {s : Splice}

/-- Carrying out placed nodes at a site. -/
abbrev Rendering.renderAt (r : Rendering) (budget : Nat) (part : Option ShownPart) (σ : Site)
    (ps : List PlacedNode) : Except Failure Splice :=
  renderNodes r (expand r budget) part σ.origin (PlacedNode.nodes ps)

/-- A part that is shown has a body that parses and is carried out at its own site. -/
theorem Tracing.Renders.exists_shown (hr : g.Renders r) {e : Expr}
    (h : r.renderNode (r.expand budget) part σ.origin (PlacedNode.showPart e before).node = .ok s) :
    ∃ name p b nodes, g.scope.nameOf e = .ok name ∧ g.template.part? name = some p ∧
      budget = b + 1 ∧
      Rendering.nodesOf g.template.own.delimiters g.limit true p.body = .ok nodes ∧
      r.renderNodes (r.expand b) (some ⟨name, p.level⟩)
        (Site.ofBody (g.bodyStart? name) (σ.before before)).origin nodes = .ok s := by
  obtain ⟨name, i, hname, hshown, hput⟩ := Rendering.renderNode_showPart_eq_ok_iff.mp h
  obtain ⟨p, hp, rfl⟩ := Rendering.shown_eq_ok_iff.mp hshown
  obtain ⟨b, nodes, rfl, hnodes, hbody⟩ := Rendering.expand_eq_ok_iff.mp hput
  rw [hr.template] at hp
  rw [hr.scope] at hname
  rw [hr.template, hr.limit] at hnodes
  rw [Site.line_origin, hr.origin _ hp] at hbody
  exact ⟨name, p, b, nodes, hname, hp, rfl, hnodes, hbody⟩

/-- A `parent` has an inherited body that parses and is carried out as brought in by it. -/
theorem Tracing.Renders.exists_inherited (hr : g.Renders r)
    (h : r.renderNode (r.expand budget) part σ.origin (PlacedNode.showParent before).node = .ok s) :
    ∃ shown p b nodes, part = some shown ∧
      g.template.inheritedPart? shown.level shown.name = some p ∧ budget = b + 1 ∧
      Rendering.nodesOf g.template.own.delimiters g.limit true p.body = .ok nodes ∧
      r.renderNodes (r.expand b) (some ⟨shown.name, p.level⟩)
        (Site.elsewhere (σ.before before)).origin nodes = .ok s := by
  obtain ⟨i, hinherited, hput⟩ := Rendering.renderNode_showParent_eq_ok_iff.mp h
  obtain ⟨shown, p, hshown, hp, rfl⟩ := Rendering.inherited_eq_ok_iff.mp hinherited
  obtain ⟨b, nodes, rfl, hnodes, hbody⟩ := Rendering.expand_eq_ok_iff.mp hput
  rw [hr.template] at hp
  rw [hr.template, hr.limit] at hnodes
  rw [Site.line_origin] at hbody
  exact ⟨shown, p, b, nodes, hshown, hp, rfl, hnodes, hbody⟩

theorem Traces.shows (hr : g.Renders r) (h : Traces g part σ ps ms)
    (hs : r.renderAt budget part σ ps = .ok s) : s.Shows ms := by
  induction h generalizing budget s with
  | nil =>
    cases hs
    exact ⟨rfl, rfl⟩
  | text _ ih =>
    obtain ⟨first, rest, hfirst, hrest, rfl⟩ := Rendering.renderNodes_cons_eq_ok_iff.mp hs
    cases hfirst
    exact (Site.shows_marks _ _ _).append (ih hrest)
  | part _ ih =>
    obtain ⟨first, rest, hfirst, hrest, rfl⟩ := Rendering.renderNodes_cons_eq_ok_iff.mp hs
    cases hfirst
    exact ih hrest
  | showPart hname hp hss hqs _ _ ihinner ih =>
    obtain ⟨first, rest, hfirst, hrest, rfl⟩ := Rendering.renderNodes_cons_eq_ok_iff.mp hs
    obtain ⟨name, p, b, nodes, hname', hp', rfl, hnodes, hbody⟩ := hr.exists_shown hfirst
    cases hname.symm.trans hname'
    cases hp.symm.trans hp'
    cases (nodesOf_of_items hss hqs).symm.trans hnodes
    exact (ihinner hbody).append (ih hrest)
  | showParent hp hss hqs _ _ ihinner ih =>
    obtain ⟨first, rest, hfirst, hrest, rfl⟩ := Rendering.renderNodes_cons_eq_ok_iff.mp hs
    obtain ⟨shown, p, b, nodes, hshown, hp', rfl, hnodes, hbody⟩ := hr.exists_inherited hfirst
    cases hshown
    cases hp.symm.trans hp'
    cases (nodesOf_of_items hss hqs).symm.trans hnodes
    exact (ihinner hbody).append (ih hrest)
  | conditional hv _ _ ihinner ih =>
    obtain ⟨first, rest, hfirst, hrest, rfl⟩ := Rendering.renderNodes_cons_eq_ok_iff.mp hs
    obtain ⟨v, hv', htaken⟩ := Rendering.renderNode_conditional_eq_ok_iff.mp hfirst
    rw [hr.scope, hv] at hv'
    cases hv'
    rw [← apply_ite PlacedNode.nodes] at htaken
    exact (ihinner htaken).append (ih hrest)

-- The budget falls only where a body is put in place, so bodies are left to a hypothesis and the
-- induction is on the nodes.
theorem exists_traces_of_bodies (hr : g.Renders r)
    (hbodies : ∀ {b part σ ps s}, budget = b + 1 → r.renderAt b part σ ps = .ok s →
      ∃ ms, Traces g part σ ps ms)
    (hs : r.renderAt budget part σ ps = .ok s) : ∃ ms, Traces g part σ ps ms := by
  induction ps using PlacedNode.listInduction generalizing s with
  | nil => exact ⟨[], .nil⟩
  | text t before ps ih =>
    obtain ⟨first, rest, -, hrest, -⟩ := Rendering.renderNodes_cons_eq_ok_iff.mp hs
    obtain ⟨ms, hms⟩ := ih hrest
    exact ⟨_, .text hms⟩
  | part name body children before bodyBefore ps ih =>
    obtain ⟨first, rest, -, hrest, -⟩ := Rendering.renderNodes_cons_eq_ok_iff.mp hs
    obtain ⟨ms, hms⟩ := ih hrest
    exact ⟨ms, .part hms⟩
  | showPart e before ps ih =>
    obtain ⟨first, rest, hfirst, hrest, -⟩ := Rendering.renderNodes_cons_eq_ok_iff.mp hs
    obtain ⟨ms, hms⟩ := ih hrest
    obtain ⟨name, p, b, nodes, hname, hp, hb, hnodes, hbody⟩ := hr.exists_shown hfirst
    obtain ⟨ss, qs, hss, hqs, rfl⟩ := nodesOf_eq_ok_iff.mp hnodes
    obtain ⟨inner, hinner⟩ := hbodies hb hbody
    exact ⟨_, .showPart hname hp hss hqs hinner hms⟩
  | showParent before ps ih =>
    obtain ⟨first, rest, hfirst, hrest, -⟩ := Rendering.renderNodes_cons_eq_ok_iff.mp hs
    obtain ⟨ms, hms⟩ := ih hrest
    obtain ⟨shown, p, b, nodes, rfl, hp, hb, hnodes, hbody⟩ := hr.exists_inherited hfirst
    obtain ⟨ss, qs, hss, hqs, rfl⟩ := nodesOf_eq_ok_iff.mp hnodes
    obtain ⟨inner, hinner⟩ := hbodies hb hbody
    exact ⟨_, .showParent hp hss hqs hinner hms⟩
  | conditional test yes no before ps hyes hno ih =>
    obtain ⟨first, rest, hfirst, hrest, -⟩ := Rendering.renderNodes_cons_eq_ok_iff.mp hs
    obtain ⟨ms, hms⟩ := ih hrest
    obtain ⟨v, hv, htaken⟩ := Rendering.renderNode_conditional_eq_ok_iff.mp hfirst
    rw [hr.scope] at hv
    have hinner : ∃ inner, Traces g part σ (if v.isTruthy then yes else no) inner := by
      split at htaken
      next h => rw [if_pos h]; exact hyes htaken
      next h => rw [if_neg h]; exact hno htaken
    obtain ⟨inner, hinner⟩ := hinner
    exact ⟨_, .conditional hv hinner hms⟩

theorem exists_traces (hr : g.Renders r) (hs : r.renderAt budget part σ ps = .ok s) :
    ∃ ms, Traces g part σ ps ms := by
  induction budget generalizing part σ ps s with
  | zero =>
    refine exists_traces_of_bodies hr (fun hb _ => ?_) hs
    cases hb
  | succ budget ih =>
    refine exists_traces_of_bodies hr (fun hb hbody => ?_) hs
    cases hb
    exact ih hbody

namespace Template

/-- What is traced when the placed nodes are the contents and the template knows their parts. -/
def tracing (t : Template) (fs : Functions) (limit : Nat) (ps : List PlacedNode) : Tracing :=
  ⟨t, t.scope fs, limit, PlacedNode.definitionsOf ps⟩

variable {t : Template} {fs : Functions} {limit : Nat} {parts : List NamedPart}

theorem bodyStart?_tracing (name : Text) :
    ((t.register parts).tracing fs limit ps).bodyStart? name =
      ((PlacedNode.definitionsOf ps).reverse.find? fun d =>
        (t.scope fs).nameOf d.name = .ok name).map PlacedDefinition.bodyBefore := by
  rw [Tracing.bodyStart?, tracing, scope_register]

variable (h : nameParts (t.scope fs) (definitionsIn (PlacedNode.nodes ps)) = (parts, none))

include h

theorem find?_parts (name : Text) :
    (parts.reverse.find? fun p => p.name = name) =
      ((PlacedNode.definitionsOf ps).reverse.find? fun d =>
        (t.scope fs).nameOf d.name = .ok name).map
          fun d => ⟨name, d.body, d.bodyBefore.endLine⟩ := by
  rw [find?_nameParts h, PlacedNode.definitionsIn_nodes, ← List.map_reverse, List.find?_map,
    Option.map_map]
  rfl

theorem exists_of_bodyStart? {name outer : Text}
    (hstart : ((t.register parts).tracing fs limit ps).bodyStart? name = some outer) :
    ∃ d ∈ PlacedNode.definitionsOf ps, d.bodyBefore = outer ∧
      (t.register parts).part? name = some ⟨0, d.body⟩ := by
  rw [bodyStart?_tracing] at hstart
  obtain ⟨d, hd, rfl⟩ := Option.map_eq_some_iff.mp hstart
  refine ⟨d, List.mem_reverse.mp (List.mem_of_find?_eq_some hd), rfl, part?_of_own ?_⟩
  rw [get?_register, find?_parts h, hd]
  rfl

theorem get?_bodyLines (name : Text) :
    ((t.register parts).rendering fs limit parts).bodyLines.get? name =
      (((t.register parts).tracing fs limit ps).bodyStart? name).map Text.endLine := by
  rw [bodyStart?_tracing, rendering, Dict.ofList, Dict.get?_insertAll_map, find?_parts h,
    Dict.get?_empty, Option.or_none, Option.map_map, Option.map_map]
  rfl

theorem renders_tracing :
    ((t.register parts).tracing fs limit ps).Renders
      ((t.register parts).rendering fs limit parts) where
  template := rfl
  scope := rfl
  limit := rfl
  origin := by
    intro name p directive hp
    rw [Rendering.originOf, get?_bodyLines h]
    cases hstart : ((t.register parts).tracing fs limit ps).bodyStart? name with
    | none => rfl
    | some outer =>
      -- A part that the contents define is found on the template itself.
      obtain ⟨d, -, -, hfound⟩ := exists_of_bodyStart? h hstart
      cases hfound.symm.trans hp
      rfl

theorem bodiesStand_tracing {contents : Text} (hps : StandIn contents ps) :
    ((t.register parts).tracing fs limit ps).BodiesStand contents := by
  intro name p outer hp hstart
  obtain ⟨d, hd, rfl, hfound⟩ := exists_of_bodyStart? h hstart
  cases hfound.symm.trans hp
  exact PlacedNode.standIn_definitions hps hd

end Template

theorem Splice.Shows.lineAt_eq (h : s.Shows ms) {n : Nat} {m : Mark} (hm : ms[n]? = some m) :
    s.lineAt n = m.before.endLine := by
  have hn : n < s.text.length := by
    rw [h.text, List.length_map]
    exact (List.getElem?_eq_some_iff.mp hm).1
  have hline := Splice.getElem?_lines hn
  rw [h.lines, List.getElem?_map, hm] at hline
  exact (Option.some.inj hline).symm

/-- Whenever the directives of the contents can be carried out, it is known of each character of the
output where in the contents it was copied from, or which directive brought it in, and the line
looked up for it is the line of that place. -/
theorem Template.lineAt_runDirectives {t u : Template} {fs : Functions} {limits : Limits}
    {contents : Text} {s : Splice} (h : t.runDirectives fs limits contents = (u, .ok s)) :
    (∃ ms, u.Traced fs limits contents ms) ∧
      ∀ ms, u.Traced fs limits contents ms → s.text = ms.map Mark.char ∧
        ∀ n m, ms[n]? = some m →
          m.Stands contents ∧ s.lineAt n = 1 + m.before.newlines := by
  obtain ⟨nodes, parts, hnodes, hparts, rfl, hs⟩ := exists_of_runDirectives h
  rw [← delimiters_register parts t] at hnodes
  constructor
  · obtain ⟨ss, ps, hss, hps, rfl⟩ := nodesOf_eq_ok_iff.mp hnodes
    obtain ⟨ms, hms⟩ := exists_traces (σ := .contents []) (renders_tracing hparts) hs
    exact ⟨ms, ss, ps, hss, hps, hms⟩
  · rintro ms ⟨ss, ps, hss, hps, hms⟩
    cases (nodesOf_of_items hss hps).symm.trans hnodes
    have hshows := hms.shows (renders_tracing hparts) hs
    have hcontents := standIn_of_segments hss hps
    have hstands := hms.stands (bodiesStand_tracing hparts hcontents) List.prefix_rfl hcontents
    refine ⟨hshows.text, fun n m hm => ⟨hstands m (List.mem_of_getElem? hm), ?_⟩⟩
    exact hshows.lineAt_eq hm

namespace Template

/-- A page that defines one part, and shows it and another one of its parent. -/
def page : Template :=
  ⟨{ contents := "<% part(1) %>a\nb<% endpart %>\n<% show(1) %><% show(2) %>".toList },
    [{ parts := .ofList [("2".toList, "c\nd".toList)] }]⟩

/-- The part of the page keeps its own lines, and the other one has the line of the directive that
shows it. -/
theorem lineAt_runDirectives_page :
    ∃ u s, page.runDirectives .usual {} page.own.contents = (u, .ok s) ∧
    s = [⟨"\n".toList, 2, true⟩, ⟨"a\nb".toList, 1, true⟩, ⟨"c\nd".toList, 3, false⟩] ∧
    (∃ ms, u.Traced .usual {} page.own.contents ms) ∧
      ∀ ms, u.Traced .usual {} page.own.contents ms → s.text = ms.map Mark.char ∧
        ∀ n m, ms[n]? = some m →
          m.Stands page.own.contents ∧ s.lineAt n = 1 + m.before.newlines := by
  have hresult : (page.runDirectives .usual {} page.own.contents).2 =
      .ok [⟨"\n".toList, 2, true⟩, ⟨"a\nb".toList, 1, true⟩, ⟨"c\nd".toList, 3, false⟩] := by
    decide +kernel
  have hpair : ∀ {x : Template × Except Failure Splice} {s : Splice}, x.2 = .ok s →
      x = (x.1, .ok s) := by
    intro x s h
    rw [← h]
  exact ⟨_, _, hpair hresult, rfl, lineAt_runDirectives (hpair hresult)⟩

end Template

end Stencil
