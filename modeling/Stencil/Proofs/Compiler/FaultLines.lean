/- Directives that fail are reported on the line of what is at fault. -/
import Stencil.Proofs.Compiler.Registration
import Stencil.Proofs.Splice.Faults

namespace Stencil

/-- The name of the part can be evaluated. -/
def Scope.CanName (s : Scope) (d : PlacedDefinition) : Prop := ∃ name, s.nameOf d.name = .ok name

/-- Either all parts can be named, or there is a first one that cannot. -/
theorem Scope.canName_or_exists_first (s : Scope) (ds : List PlacedDefinition) :
    (∀ d ∈ ds, s.CanName d) ∨ ∃ front d rear e, ds = front ++ d :: rear ∧
      (∀ m ∈ front, s.CanName m) ∧ s.nameOf d.name = .error e := by
  induction ds with
  | nil => exact .inl nofun
  | cons d ds ih =>
    cases hd : s.nameOf d.name with
    | error e => exact .inr ⟨[], d, ds, e, rfl, nofun, hd⟩
    | ok name =>
      have hname : s.CanName d := ⟨name, hd⟩
      rcases ih with hall | ⟨front, m, rear, e, rfl, hfront, hm⟩
      · exact .inl (List.forall_mem_cons.mpr ⟨hname, hall⟩)
      · exact .inr ⟨d :: front, m, rear, e, rfl, List.forall_mem_cons.mpr ⟨hname, hfront⟩, hm⟩

/-- All parts are named where they can be. -/
theorem nameParts_of_canName {s : Scope} {ds : List PlacedDefinition}
    (h : ∀ d ∈ ds, s.CanName d) :
    ∃ parts, nameParts s (ds.map PlacedDefinition.definition) = (parts, none) :=
  exists_nameParts_iff.mpr (List.forall_mem_map.mpr h)

theorem snd_nameParts_of_error {s : Scope} {front : List PlacedDefinition}
    {d : PlacedDefinition} {e : EvalError} (h : ∀ m ∈ front, s.CanName m)
    (hd : s.nameOf d.name = .error e) (rear : List PlacedDefinition) :
    (nameParts s ((front ++ d :: rear).map PlacedDefinition.definition)).2 =
      some ⟨.evaluation e, d.before.endLine⟩ := by
  obtain ⟨parts, hparts⟩ := nameParts_of_canName h
  have hname : s.nameOf d.definition.name = .error e := hd
  rw [List.map_append, nameParts_append hparts, List.map_cons, nameParts, hname]
  rfl

namespace Template

/-- The first fault of the directives of the contents, when the parts that the contents define are
registered on the template. -/
inductive Faulted (t : Template) (fs : Functions) (limits : Limits) (contents : Text) :
    Fault → Prop
  | unreadable {f} :
      Rendering.nodesOf t.own.delimiters limits.directiveDepth false contents = .error f →
      Faulted t fs limits contents ⟨f.cause, .contents [], .line contents f.line⟩
  | unnamed {ss ps front d rear e} : segments t.own.delimiters contents = .ok ss →
      Items false limits.directiveDepth [] ss ps →
      PlacedNode.definitionsOf ps = front ++ d :: rear → (∀ m ∈ front, (t.scope fs).CanName m) →
      (t.scope fs).nameOf d.name = .error e →
      Faulted t fs limits contents ⟨.evaluation e, .contents [], .definition d⟩
  | carrying {ss ps φ} : segments t.own.delimiters contents = .ok ss →
      Items false limits.directiveDepth [] ss ps →
      (∀ m ∈ PlacedNode.definitionsOf ps, (t.scope fs).CanName m) →
      (t.tracing fs limits.directiveDepth ps).Faults limits.directiveDepth none (.contents []) ps
        φ →
      Faulted t fs limits contents φ

variable {t u : Template} {fs : Functions} {limits : Limits} {contents : Text} {φ : Fault}
  {result : Except Failure Splice} {ps : List PlacedNode}

theorem exists_register_of_runDirectives
    (h : t.runDirectives fs limits contents = (u, result)) : ∃ parts, t.register parts = u := by
  have hu := congrArg Prod.fst h
  cases hnodes : Rendering.nodesOf t.own.delimiters limits.directiveDepth false contents with
  | error f =>
    rw [runDirectives_of_nodesOf_error hnodes] at hu
    exact ⟨[], hu⟩
  | ok nodes =>
    rw [runDirectives_of_nodesOf hnodes] at hu
    exact ⟨_, hu⟩

theorem exists_nameParts_nodes (h : ∀ d ∈ PlacedNode.definitionsOf ps, (t.scope fs).CanName d) :
    ∃ parts, nameParts (t.scope fs) (definitionsIn (PlacedNode.nodes ps)) = (parts, none) := by
  rw [PlacedNode.definitionsIn_nodes]
  exact nameParts_of_canName h

theorem exists_faulted_of_runDirectives {f : Failure}
    (h : t.runDirectives fs limits contents = (u, .error f)) :
    ∃ φ, u.Faulted fs limits contents φ := by
  cases hnodes : Rendering.nodesOf t.own.delimiters limits.directiveDepth false contents with
  | error f' =>
    rw [runDirectives, hnodes] at h
    cases h
    exact ⟨_, .unreadable hnodes⟩
  | ok nodes =>
    obtain ⟨ss, ps, hss, hps, rfl⟩ := nodesOf_eq_ok_iff.mp hnodes
    obtain ⟨registered, rfl⟩ := exists_register_of_runDirectives h
    rw [← delimiters_register registered] at hss
    rcases (t.scope fs).canName_or_exists_first (PlacedNode.definitionsOf ps) with
      hall | ⟨front, d, rear, e, hsplit, hfront, hd⟩
    · obtain ⟨parts, hparts⟩ := exists_nameParts_nodes hall
      rw [runDirectives_of_named hnodes hparts] at h
      obtain ⟨hregistered, hrender⟩ := Prod.mk.inj h
      rw [← hregistered] at hss ⊢
      obtain ⟨φ, hφ, -⟩ :=
        Tracing.exists_faults_of_render (σ := .contents []) (renders_tracing hparts) hrender
      refine ⟨φ, .carrying hss hps ?_ hφ⟩
      rwa [scope_register]
    · rw [← scope_register registered] at hfront hd
      exact ⟨_, .unnamed hss hps hsplit hfront hd⟩

/-- The first fault is reported, and it stands where it says. -/
theorem Faulted.failure_and_stands (hφ : u.Faulted fs limits contents φ)
    (h : t.runDirectives fs limits contents = (u, result)) :
    result = .error φ.failure ∧ φ.Stands contents := by
  obtain ⟨registered, hu⟩ := exists_register_of_runDirectives h
  have hcontents : (Site.contents []).Holds contents contents := List.prefix_rfl
  cases hφ with
  | @unreadable f hnodes =>
    refine ⟨?_, Tracing.stands_line hcontents (hasLine_of_nodesOf hnodes)⟩
    rw [← hu, delimiters_register] at hnodes
    rw [runDirectives, hnodes] at h
    cases h
    show _ = Except.error (⟨f.cause, 0 + f.line⟩ : Failure)
    rw [Nat.zero_add]
  | @unnamed ss ps front d rear e hss hps hsplit hfront hd =>
    obtain ⟨s, hs, hwhole⟩ := (beginIn_of_segments hss hps).exists_definition
      (hsplit ▸ List.mem_append_right front List.mem_cons_self)
    refine ⟨?_, s, hs, hwhole⟩
    rw [← hu, delimiters_register] at hss
    rw [← hu, scope_register] at hfront hd
    have hfailure := snd_nameParts_of_error hfront hd rear
    rw [← hsplit, ← PlacedNode.definitionsIn_nodes] at hfailure
    rw [runDirectives_of_unnamed (nodesOf_of_items hss hps) (Prod.ext rfl hfailure)] at h
    exact (congrArg Prod.snd h).symm
  | @carrying ss ps φ hss hps hall hfaults =>
    have hbegin := beginIn_of_segments hss hps
    have hstand := standIn_of_segments hss hps
    rw [← hu, delimiters_register] at hss
    rw [← hu, scope_register] at hall
    obtain ⟨parts, hparts⟩ := exists_nameParts_nodes hall
    rw [runDirectives_of_named (nodesOf_of_items hss hps) hparts] at h
    obtain ⟨rfl, rfl⟩ := Prod.mk.inj h
    constructor
    · exact hfaults.render (renders_tracing hparts)
    · exact hfaults.stands (bodiesStand_tracing hparts hstand) hcontents hbegin

end Template

namespace Compiler

/-- Whenever directives fail, something is at fault: the contents or the body of a part cannot be
read, a part cannot be named, or the first directive that is not carried out cannot be. The failure
names the line of the contents where that stands, or else, when it stands in no body that the
contents define, the line of the directive in the contents which brought the body in. -/
theorem line_of_compileDirectives {c : Compiler} {t u : Template} {contents : Text} {f : Failure}
    (h : c.compileDirectives t contents = (u, .error f)) :
    (∃ φ, u.Faulted c.functions c.limits contents φ) ∧
      ∀ φ, u.Faulted c.functions c.limits contents φ →
        f.cause = φ.cause ∧ f.line = φ.line ∧ φ.Stands contents := by
  cases hrun : t.runDirectives c.functions c.limits contents with
  | mk v result =>
    rw [compileDirectives, hrun] at h
    obtain ⟨rfl, hresult⟩ := Prod.mk.inj h
    obtain rfl := Outcome.map_eq_error_iff.mp hresult
    refine ⟨Template.exists_faulted_of_runDirectives hrun, ?_⟩
    intro φ hφ
    obtain ⟨hfailure, hstands⟩ := hφ.failure_and_stands hrun
    cases hfailure
    exact ⟨rfl, rfl, hstands⟩

/-- A page with a part that shows a part of its parent, where a condition cannot be evaluated. -/
def relay : Template :=
  ⟨{ contents := "<% part(1) %>\n\n<% show(2) %><% endpart %>\n<% show(1) %>".toList },
    [{ parts := .ofList [("2".toList, "a\n<% if($no) %><% endif %>".toList)] }]⟩

/-- The condition is reported on the third line, where the page shows the part that it stands in. -/
theorem line_of_compileDirectives_relay :
    let c : Compiler := .usual
    let f : Failure := ⟨.evaluation (.undefinedVariable "no".toList), 3⟩
    ∃ u, c.compileDirectives relay relay.own.contents = (u, .error f) ∧
      (∃ φ, u.Faulted c.functions c.limits relay.own.contents φ) ∧
        ∀ φ, u.Faulted c.functions c.limits relay.own.contents φ →
          f.cause = φ.cause ∧ f.line = φ.line ∧ φ.Stands relay.own.contents := by
  intro c f
  have hresult : (c.compileDirectives relay relay.own.contents).2 = .error f := by decide +kernel
  cases hrun : c.compileDirectives relay relay.own.contents with
  | mk u result =>
    rw [hrun] at hresult
    cases hresult
    exact ⟨u, rfl, line_of_compileDirectives hrun⟩

end Compiler

end Stencil
