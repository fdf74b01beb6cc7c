/- A template without parents that compiles like one with a chain of them. -/
import Stencil.Proofs.Splice.Points
import Stencil.Proofs.Splice.Tagging
import Stencil.Proofs.Template.Lookup
import Stencil.Usual

namespace Stencil

namespace Template

/-- The template alone, with all that its chain makes visible as its own. -/
def flatten (t : Template) : Template :=
  ⟨{ t.own with tags := t.tags, vars := t.vars, parts := t.parts }, []⟩

theorem delimiters_flatten (t : Template) : t.flatten.own.delimiters = t.own.delimiters := rfl

@[simp] theorem tag?_flatten (t : Template) : t.flatten.tag? = t.tag? := by
  funext name
  rw [tag?, layers, flatten, List.findSome?_cons, get?_tags]
  cases t.tag? name <;> rfl

@[simp] theorem var?_flatten (t : Template) : t.flatten.var? = t.var? := by
  funext name
  rw [var?, layers, flatten, List.findSome?_cons, get?_vars]
  cases t.var? name <;> rfl

@[simp] theorem scope_flatten (t : Template) (fs : Functions) :
    t.flatten.scope fs = t.scope fs := by
  rw [scope, tag?_flatten, var?_flatten, scope]

theorem part?_flatten (t : Template) (name : Text) :
    t.flatten.part? name = (t.part? name).map fun p => { p with level := 0 } := by
  rw [part?, layers, flatten, findPart?, get?_parts]
  cases t.part? name <;> rfl

@[simp] theorem parts_flatten (t : Template) : t.flatten.parts = t.parts := by
  apply Dict.ext
  intro name
  rw [get?_parts, get?_parts, part?_flatten, Option.map_map]
  rfl

theorem flatten_register (ps : List NamedPart) (t : Template) :
    (t.register ps).flatten = t.flatten.register ps := by
  have hparts : (t.register ps).parts =
      t.flatten.own.parts.insertAll (ps.map fun p => (p.name, p.body)) := by
    apply Dict.ext
    intro name
    rw [get?_parts_register, Dict.get?_insertAll_map]
    rfl
  rw [register_eq ps t.flatten, ← hparts, register_eq]
  rfl

end Template

namespace Rendering

def flatten (r : Rendering) : Rendering := { r with template := r.template.flatten }

theorem bodyLines_flatten (r : Rendering) : r.flatten.bodyLines = r.bodyLines := rfl

theorem scope_flatten (r : Rendering) : r.flatten.scope = r.scope := rfl

theorem nodesOf_flatten (r : Rendering) :
    nodesOf r.flatten.template.own.delimiters r.flatten.limit =
      nodesOf r.template.own.delimiters r.limit := rfl

/-- Only parts of the template itself have lines. -/
def Homed (r : Rendering) : Prop :=
  ∀ name first, r.bodyLines.get? name = some first →
    ∃ body, r.template.own.parts.get? name = some body

/-- No `parent` comes next in the body of a part, now or later. -/
def Spares (r : Rendering) (m : RenderPoint) : Prop := ∀ p, r.Leads m p → ¬ p.InheritsNext

theorem Spares.step {r : Rendering} {m p : RenderPoint} (h : r.Spares m) (hstep : r.Steps m p) :
    r.Spares p := fun q hq => h q (.head hstep hq)

end Rendering

mutual

/-- Whether a `parent` stands in the node, outside the bodies of parts. -/
def Node.inherits : Node → Bool
  | .text _ _ => false
  | .part _ _ _ _ _ => false
  | .showPart _ _ => false
  | .showParent _ => true
  | .conditional _ yes no _ => inheritsIn yes || inheritsIn no

def inheritsIn : List Node → Bool
  | [] => false
  | n :: ns => n.inherits || inheritsIn ns

end

namespace Rendering

/-- Where no body in sight holds a `parent`, none comes up in the body of a part. -/
theorem spares_of_bodies {r : Rendering} (hbodies : ∀ name p nodes,
      r.template.part? name = some p →
      nodesOf r.template.own.delimiters r.limit true p.body = .ok nodes → inheritsIn nodes = false)
    {m : RenderPoint} (hm : m.part = none ∨ inheritsIn m.nodes = false) : r.Spares m := by
  intro p hp
  have hkept : p.part = none ∨ inheritsIn p.nodes = false := by
    induction hp with
    | refl => exact hm
    | tail _ hstep ih =>
      cases hstep with
      | past _ => exact ih.imp_right fun h => (Bool.or_eq_false_iff.mp h).2
      | @branch b part origin test yes no line ns v _ =>
        refine ih.imp_right fun h => ?_
        have hbranches := Bool.or_eq_false_iff.mp (Bool.or_eq_false_iff.mp h).1
        show inheritsIn (if v.isTruthy then yes else no) = false
        split
        · exact hbranches.1
        · exact hbranches.2
      | @shown b part origin e line ns name i nodes _ hshown hnodes =>
        unfold Rendering.shown at hshown
        split at hshown
        next => cases hshown
        next found hfound =>
          cases hshown
          exact .inr (hbodies name found nodes hfound hnodes)
      | inherited hinherited _ =>
        rcases ih with rfl | h
        · cases hinherited
        · cases h
  rintro ⟨hpart, line, ns, hnodes⟩
  rcases hkept with h | h
  · exact hpart h
  · rw [hnodes] at h
    cases h

end Rendering

/-- The inclusion where the part was found in the template itself. -/
def Inclusion.flatten (i : Inclusion) : Inclusion := { i with part := { i.part with level := 0 } }

namespace Rendering

variable {r : Rendering}

theorem originOf_flatten (hhomed : r.Homed) {name : Text} {p : FoundPart}
    (hp : r.template.part? name = some p) (line : Nat) :
    r.flatten.originOf name 0 line = r.originOf name p.level line := by
  rw [originOf, originOf, bodyLines_flatten]
  cases hfirst : r.bodyLines.get? name with
  | none => rfl
  | some first =>
    obtain ⟨body, hbody⟩ := hhomed name first hfirst
    rw [Template.part?_of_own hbody] at hp
    cases hp
    rfl

theorem shown_flatten (hhomed : r.Homed) (name : Text) (line : Nat) :
    r.flatten.shown name line = (r.shown name line).map Inclusion.flatten := by
  have hpart : r.flatten.template.part? name = _ := Template.part?_flatten r.template name
  rw [shown, shown, hpart]
  cases hp : r.template.part? name with
  | none => rfl
  | some p =>
    rw [Option.map_some]
    simp only [Except.map, Inclusion.flatten, originOf_flatten hhomed hp]

/-- What is put in place at `budget` is the same without the parents, if it comes to no `parent`. -/
def ExpandsAlike (r : Rendering) (budget : Nat) : Prop :=
  ∀ i : Inclusion, (∀ b nodes, budget = b + 1 →
      nodesOf r.template.own.delimiters r.limit true i.body = .ok nodes →
      r.Spares ⟨b, some i.part, i.origin, nodes⟩) →
    expand r.flatten budget i.flatten = expand r budget i

theorem renderNodes_cons_congr {r u : Rendering} {e f : Inclusion → Except Failure Splice}
    {part other : Option ShownPart} {origin : Origin} {n : Node} {ns : List Node}
    (hnode : renderNode u f other origin n = renderNode r e part origin n)
    (hrest : ∀ s, renderNode r e part origin n = .ok s →
      renderNodes u f other origin ns = renderNodes r e part origin ns) :
    renderNodes u f other origin (n :: ns) = renderNodes r e part origin (n :: ns) := by
  rw [renderNodes, renderNodes, hnode]
  cases hs : renderNode r e part origin n with
  | error f => rfl
  | ok s => rw [hrest s hs]

-- The part at hand may differ in its level, which only a `parent` looks at.
theorem renderNodes_flatten (hhomed : r.Homed) {budget : Nat} (hexpand : r.ExpandsAlike budget)
    {part other : Option ShownPart} {origin : Origin} (hother : part = none → other = none)
    {nodes : List Node} (hspares : r.Spares ⟨budget, part, origin, nodes⟩) :
    renderNodes r.flatten (expand r.flatten budget) other origin nodes =
      renderNodes r (expand r budget) part origin nodes := by
  induction nodes using nodesInduction with
  | nil => rfl
  | text t line ns ih =>
    exact renderNodes_cons_congr rfl fun s hs => ih (hspares.step (.past hs))
  | part name body children line bodyLine ns _ ih =>
    exact renderNodes_cons_congr rfl fun s hs => ih (hspares.step (.past hs))
  | showPart e line ns ih =>
    refine renderNodes_cons_congr ?_ fun s hs => ih (hspares.step (.past hs))
    rw [renderNode, renderNode, scope_flatten]
    cases hname : r.scope.nameOf e with
    | error err => rfl
    | ok name =>
      dsimp only
      rw [shown_flatten hhomed]
      cases hshown : r.shown name (origin.line line) with
      | error cause => rfl
      | ok i =>
        refine hexpand i fun b nodes hb hnodes => ?_
        subst hb
        exact hspares.step (.shown hname hshown hnodes)
  | showParent line ns ih =>
    refine renderNodes_cons_congr ?_ fun s hs => ih (hspares.step (.past hs))
    cases part with
    | none => rw [hother rfl, renderNode, renderNode, inherited, inherited]
    | some shown => exact absurd ⟨Option.some_ne_none shown, line, ns, rfl⟩ (hspares _ .refl)
  | conditional test yes no line ns hyes hno ih =>
    refine renderNodes_cons_congr ?_ fun s hs => ih (hspares.step (.past hs))
    rw [renderNode, renderNode, scope_flatten]
    cases heval : r.scope.eval test with
    | error err => rfl
    | ok v =>
      have htaken := hspares.step (.branch heval)
      dsimp only
      cases hv : v.isTruthy with
      | true => exact hyes (by simpa [hv] using htaken)
      | false => exact hno (by simpa [hv] using htaken)

theorem expand_flatten (hhomed : r.Homed) (budget : Nat) : r.ExpandsAlike budget := by
  induction budget with
  | zero => exact fun i _ => rfl
  | succ b ih =>
    intro i hspares
    rw [expand, expand, nodesOf_flatten, Inclusion.flatten]
    cases hnodes : nodesOf r.template.own.delimiters r.limit true i.body with
    | error f => rfl
    | ok nodes =>
      have hbody := hspares b nodes rfl hnodes
      refine renderNodes_flatten hhomed ih (fun hpart => ?_) hbody
      cases hpart

theorem render_flatten (hhomed : r.Homed) {nodes : List Node}
    (hspares : r.Spares ⟨r.limit, none, .source 1, nodes⟩) :
    r.flatten.render nodes = r.render nodes :=
  renderNodes_flatten hhomed (expand_flatten hhomed r.limit) (fun _ => rfl) hspares

end Rendering

namespace Template

theorem homed_rendering (t : Template) (fs : Functions) (limit : Nat) (ps : List NamedPart) :
    ((t.register ps).rendering fs limit ps).Homed := by
  intro name first hfirst
  have hfound : ((ps.reverse.find? fun p => p.name = name).map NamedPart.bodyLine).or none =
      some first := by
    rw [← hfirst, rendering, Dict.ofList, Dict.get?_insertAll_map]
    rfl
  show ∃ body, (t.register ps).own.parts.get? name = some body
  rw [get?_register]
  cases hp : ps.reverse.find? fun p => p.name = name with
  | none => simp [hp] at hfound
  | some p => exact ⟨p.body, rfl⟩

theorem runDirectives_flatten (t : Template) (fs : Functions) (limits : Limits) (contents : Text)
    (h : ∀ m, t.Reaches fs limits contents m → ¬ m.InheritsNext) :
    t.flatten.runDirectives fs limits contents =
      ((t.runDirectives fs limits contents).1.flatten, (t.runDirectives fs limits contents).2) := by
  rw [runDirectives, runDirectives, delimiters_flatten]
  cases hnodes : Rendering.nodesOf t.own.delimiters limits.directiveDepth false contents with
  | error f => rfl
  | ok nodes =>
    dsimp only
    rw [scope_flatten]
    cases hps : nameParts (t.scope fs) (definitionsIn nodes) with
    | mk ps failure =>
      cases failure with
      | some f => rw [flatten_register]
      | none =>
        have hspares : ((t.register ps).rendering fs limits.directiveDepth ps).Spares
            ⟨limits.directiveDepth, none, .source 1, nodes⟩ :=
          fun p hp => h p ⟨nodes, ps, hnodes, hps, hp⟩
        have hflat : (t.flatten.register ps).rendering fs limits.directiveDepth ps =
            ((t.register ps).rendering fs limits.directiveDepth ps).flatten := by
          rw [← flatten_register, rendering, scope_flatten]
          rfl
        dsimp only
        rw [flatten_register, hflat,
          Rendering.render_flatten (homed_rendering t fs limits.directiveDepth ps) hspares]

end Template

namespace Compiler

theorem alike_flatten (c : Compiler) (t : Template) :
    (c.tagging t).Alike (c.tagging t.flatten) where
  tag? := t.tag?_flatten
  delimiters := rfl
  scope := t.scope_flatten c.functions
  escape := rfl
  limit := rfl

/-- A chain of parents can be folded into the template: unless a `parent` comes up in the body of a
part, the result is the same, and so are the parts in sight afterwards. -/
theorem compile_flatten (c : Compiler) (t : Template)
    (h : ∀ m, t.Reaches c.functions c.limits t.own.contents m → ¬ m.InheritsNext) :
    (c.compile t.flatten).2 = (c.compile t).2 ∧
      (c.compile t.flatten).1.parts = (c.compile t).1.parts := by
  have hrun : t.flatten.runDirectives c.functions c.limits t.flatten.own.contents = _ :=
    t.runDirectives_flatten c.functions c.limits t.own.contents h
  rw [compile, compile, hrun]
  cases t.runDirectives c.functions c.limits t.own.contents with
  | mk registered result =>
    cases result with
    | error f => exact ⟨rfl, registered.parts_flatten⟩
    | ok s => exact ⟨(c.alike_flatten registered).run s, registered.parts_flatten⟩

/-- A part of the parent with a tag of the parent. -/
def greeting : Template :=
  ⟨{ contents := "<% show('p') %>".toList },
    [{ tags := .ofList [("who".toList, "you".toList)],
       parts := .ofList [("p".toList, "Hi \x7b\x7b who \x7d\x7d".toList)] }]⟩

theorem body_of_greeting {name : Text} {p : FoundPart} (h : greeting.part? name = some p) :
    p.body = "Hi \x7b\x7b who \x7d\x7d".toList := by
  have hget : greeting.parts.get? name =
      if "p".toList = name then some "Hi \x7b\x7b who \x7d\x7d".toList else none := rfl
  rw [Template.get?_parts, h] at hget
  split at hget
  · exact Option.some.inj hget
  · cases hget

/-- The parent of a greeting can be folded into it. -/
theorem compile_flatten_greeting :
    (∀ m, greeting.Reaches .usual {} greeting.own.contents m → ¬ m.InheritsNext) ∧
      (compile .usual greeting).2 = .ok "Hi you".toList ∧
      (compile .usual greeting.flatten).2 = .ok "Hi you".toList ∧
      (compile .usual greeting).1.parts.entries =
        [("p".toList, "Hi \x7b\x7b who \x7d\x7d".toList)] ∧
      (compile .usual greeting.flatten).1.parts.entries =
        [("p".toList, "Hi \x7b\x7b who \x7d\x7d".toList)] := by
  have hspares : ∀ m, greeting.Reaches .usual {} greeting.own.contents m → ¬ m.InheritsNext := by
    rintro m ⟨nodes, ps, hnodes, hps, hleads⟩
    have hcut : segments {} "<% show('p') %>".toList =
        .ok [.directive "<%".toList " ".toList "show".toList "('p') ".toList "%>".toList] := by
      decide +kernel
    have hcontents : Rendering.nodesOf {} 32 false "<% show('p') %>".toList =
        .ok [.showPart (.literal (.text "p".toList)) 1] := by
      rw [Rendering.nodesOf, hcut]
      rfl
    have hbody : Rendering.nodesOf {} 32 true "Hi \x7b\x7b who \x7d\x7d".toList =
        .ok [.text "Hi ".toList 1, .text "\x7b\x7b who \x7d\x7d".toList 1] := rfl
    cases hcontents.symm.trans hnodes
    cases hps
    refine Rendering.spares_of_bodies (fun name p nodes hp h => ?_) (.inl rfl) m hleads
    rw [body_of_greeting hp] at h
    cases hbody.symm.trans h
    rfl
  have hpage : (compile .usual greeting).2 = .ok "Hi you".toList := by decide +kernel
  have hheads : (compile .usual greeting).1.parts.entries =
      [("p".toList, "Hi \x7b\x7b who \x7d\x7d".toList)] := by
    decide +kernel
  obtain ⟨hresult, hparts⟩ := compile_flatten .usual greeting hspares
  exact ⟨hspares, hpage, hresult.trans hpage, hheads,
    (congrArg Dict.entries hparts).trans hheads⟩

end Compiler

end Stencil
