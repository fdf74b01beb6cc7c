/- What nodes come to depends, lines aside, on the texts that they draw and the parts they write. -/
import Stencil.Proofs.Compiler.Registration
import Stencil.Proofs.Splice.Inlining

namespace Stencil

theorem Outcome.exists_ok_of_isOk {ε α : Type} {r : Except ε α} (h : r.isOk = true) :
    ∃ a, r = .ok a := by
  cases r with
  | error e => cases h
  | ok a => exact ⟨a, rfl⟩

theorem Outcome.exists_error_of_mapError {ε δ α : Type} {r : Except ε α} {f : ε → δ} {e : δ}
    (h : r.mapError f = .error e) : ∃ e, r = .error e := by
  cases r with
  | ok a => cases h
  | error e => exact ⟨e, rfl⟩

/-- The nodes come to the same in every setting, and write the same parts. -/
structure SameNodes (ns ms : List Node) : Prop where
  drawn : ∀ (g : Setting) put part, g.drawNodes put part ns = g.drawNodes put part ms
  written : (definitionsIn ns).map PartDefinition.written =
    (definitionsIn ms).map PartDefinition.written

theorem nodeCongruence_sameNodes : NodeCongruence SameNodes where
  refl _ := ⟨fun _ _ _ => rfl, rfl⟩
  trans hns hms :=
    ⟨fun g put part => (hns.drawn g put part).trans (hms.drawn g put part),
      hns.written.trans hms.written⟩
  append hns hms := by
    refine ⟨fun g put part => ?_, ?_⟩
    · rw [Setting.drawNodes_append, Setting.drawNodes_append, hns.drawn, hms.drawn]
    · simp only [definitionsIn_append, List.map_append, hns.written, hms.written]
  text _ _ _ := ⟨fun _ _ _ => rfl, rfl⟩
  texts t u _ _ _ := by
    refine ⟨fun g put part => ?_, rfl⟩
    exact congrArg Except.ok (List.append_assoc t u []).symm
  part _ _ _ _ _ _ _ _ := ⟨fun _ _ _ => rfl, rfl⟩
  showPart _ _ _ := ⟨fun _ _ _ => rfl, rfl⟩
  showParent _ _ := ⟨fun _ _ _ => rfl, rfl⟩
  conditional test line line' hyes hno := by
    refine ⟨fun g put part => ?_, ?_⟩
    · rw [Setting.drawNodes_singleton, Setting.drawNodes_singleton, Setting.drawNode,
        Setting.drawNode, hyes.drawn, hno.drawn]
    · simp only [definitionsIn, Node.definitions, List.map_append, hyes.written, hno.written]

namespace Template

variable {t : Template} {fs : Functions}

theorem register_congr {ps qs : List NamedPart} (t : Template)
    (h : (ps.map fun p => (p.name, p.body)) = qs.map fun p => (p.name, p.body)) :
    t.register ps = t.register qs := by
  rw [register_eq, register_eq, h]

/-- The template with the parts of the nodes, and what the nodes come to, lines aside: a text, or
the cause of a failure. -/
def carryOut (t : Template) (fs : Functions) (limit : Nat) (ns : List Node) :
    Template × Except Cause Text :=
  let named := nameParts (t.scope fs) (definitionsIn ns)
  let g : Setting := ⟨t.register named.1, t.scope fs, limit⟩
  (g.template,
    match named.2.map Failure.cause with
    | some cause => .error cause
    | none => g.drawNodes (g.drawBody limit) none ns)

theorem carryOut_congr (t : Template) (fs : Functions) (limit : Nat) {ns ms : List Node}
    (h : SameNodes ns ms) : t.carryOut fs limit ns = t.carryOut fs limit ms := by
  obtain ⟨hpairs, hcauses⟩ := nameParts_congr (t.scope fs) h.written
  rw [carryOut, carryOut]
  dsimp only
  rw [hcauses, t.register_congr hpairs, h.drawn]

end Template

namespace Compiler

variable (c : Compiler) (t : Template) {contents : Text}

/-- What comes of the directives of a text that can be parsed is what its nodes are carried out
to. -/
theorem compileDirectives_of_nodesOf {ns : List Node}
    (h : Rendering.nodesOf t.own.delimiters c.limits.directiveDepth false contents = .ok ns) :
    (c.compileDirectives t contents).1 =
        (t.carryOut c.functions c.limits.directiveDepth ns).1 ∧
      (c.compileDirectives t contents).2.mapError Failure.cause =
        (t.carryOut c.functions c.limits.directiveDepth ns).2 := by
  rw [compileDirectives, Template.carryOut]
  cases hparts : nameParts (t.scope c.functions) (definitionsIn ns) with
  | mk parts failure =>
    cases failure with
    | some f =>
      rw [Template.runDirectives_of_unnamed h hparts]
      exact ⟨rfl, rfl⟩
    | none =>
      rw [Template.runDirectives_of_named h hparts]
      refine ⟨rfl, ?_⟩
      show Rendering.outcome (Rendering.render _ ns) = _
      rw [Rendering.outcome_render, Template.setting_rendering]
      rfl

end Compiler

end Stencil
