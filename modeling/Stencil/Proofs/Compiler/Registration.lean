/- What a compilation leaves on the template: the parts that it could name, and nothing else. -/
import Stencil.Proofs.Node.Definitions
import Stencil.Proofs.Splice.Rendering
import Stencil.Proofs.Template.Lookup
import Stencil.Usual

namespace Stencil

/-- The last of the pairs with a name counts. -/
theorem Dict.get?_insertAll_last {α : Type} (pairs : List (Text × α)) (d : Dict α) (name : Text) :
    (insertAll pairs d).get? name =
      ((pairs.reverse.find? fun p => p.1 = name).map Prod.snd).or (d.get? name) := by
  have hpairs := get?_insertAll_map Prod.fst Prod.snd pairs d name
  rwa [List.map_id'] at hpairs

/-- The parts are named in order, up to the first whose name cannot be evaluated. -/
def Scope.NamesParts (s : Scope) (ws : List WrittenPart) (named : List (Text × Text)) : Prop :=
  ∃ front rest, ws = front ++ rest ∧
    (front.map fun w => (s.nameOf w.name, w.body)) = (named.map fun p => (.ok p.1, p.2)) ∧
    ∀ w ∈ rest.head?, ∃ e, s.nameOf w.name = .error e

theorem namesParts_nameParts (s : Scope) (ds : List PartDefinition) :
    s.NamesParts (ds.map PartDefinition.written)
      ((nameParts s ds).1.map fun p => (p.name, p.body)) := by
  induction ds with
  | nil => exact ⟨[], [], rfl, rfl, nofun⟩
  | cons d ds ih =>
    rw [nameParts]
    cases hd : s.nameOf d.name with
    | error e =>
      refine ⟨[], _, rfl, rfl, fun w hw => ?_⟩
      cases hw
      exact ⟨e, hd⟩
    | ok name =>
      obtain ⟨front, rest, hsplit, hnamed, hrest⟩ := ih
      refine ⟨d.written :: front, rest, ?_, ?_, hrest⟩
      · rw [List.map_cons, hsplit, List.cons_append]
      · simp [hnamed, PartDefinition.written, hd]

namespace Template

variable {t : Template} {fs : Functions} {limits : Limits} {contents : Text}

theorem runDirectives_of_nodesOf_error {f : Failure}
    (h : Rendering.nodesOf t.own.delimiters limits.directiveDepth false contents = .error f) :
    (t.runDirectives fs limits contents).1 = t := by
  rw [runDirectives, h]

theorem runDirectives_of_unnamed {nodes : List Node} {parts : List NamedPart} {f : Failure}
    (hnodes : Rendering.nodesOf t.own.delimiters limits.directiveDepth false contents = .ok nodes)
    (hparts : nameParts (t.scope fs) (definitionsIn nodes) = (parts, some f)) :
    t.runDirectives fs limits contents = (t.register parts, .error f) := by
  rw [runDirectives, hnodes]
  dsimp only
  rw [hparts]

theorem runDirectives_of_named {nodes : List Node} {parts : List NamedPart}
    (hnodes : Rendering.nodesOf t.own.delimiters limits.directiveDepth false contents = .ok nodes)
    (hparts : nameParts (t.scope fs) (definitionsIn nodes) = (parts, none)) :
    t.runDirectives fs limits contents = (t.register parts,
      ((t.register parts).rendering fs limits.directiveDepth parts).render nodes) := by
  rw [runDirectives, hnodes]
  dsimp only
  rw [hparts]

/-- Whatever fails later, the parts that could be named are registered. -/
theorem runDirectives_of_nodesOf {nodes : List Node}
    (h : Rendering.nodesOf t.own.delimiters limits.directiveDepth false contents = .ok nodes) :
    (t.runDirectives fs limits contents).1 =
      t.register (nameParts (t.scope fs) (definitionsIn nodes)).1 := by
  rw [runDirectives, h]
  dsimp only
  cases nameParts (t.scope fs) (definitionsIn nodes) with
  | mk parts failure => cases failure <;> rfl

end Template

namespace Compiler

variable (c : Compiler) (t : Template) (contents : Text)

theorem template_compileDirectives :
    (c.compileDirectives t contents).1 = (t.runDirectives c.functions c.limits contents).1 := rfl

/-- Tags leave the template as it is, and so does whatever fails at them. -/
theorem template_compile :
    (c.compile t).1 = (c.compileDirectives t t.own.contents).1 := by
  rw [template_compileDirectives, compile]
  cases t.runDirectives c.functions c.limits t.own.contents with
  | mk u result => cases result <;> rfl

/-- Whatever comes of a compilation, only the parts of the template itself can change. They stay
where the contents cannot be cut or parsed. Otherwise those that are written in the contents, in
every branch, are set in their order up to the first whose name cannot be evaluated, so that the
last one of a name counts. -/
theorem parts_of_compilation :
    (c.compile t).1 = (c.compileDirectives t t.own.contents).1 ∧
      ∃ parts, (c.compileDirectives t contents).1 = { t with own := { t.own with parts } } ∧
        ((∀ ss ns, segments t.own.delimiters contents = .ok ss →
          parseNodes c.limits.directiveDepth false ss ≠ .ok ns) → parts = t.own.parts) ∧
        ∀ ss ns, segments t.own.delimiters contents = .ok ss →
          parseNodes c.limits.directiveDepth false ss = .ok ns →
          ∃ named, (t.scope c.functions).NamesParts (writtenParts ss) named ∧
            parts = t.own.parts.insertAll named ∧
            ∀ name, parts.get? name =
              ((named.reverse.find? fun p => p.1 = name).map Prod.snd).or
                (t.own.parts.get? name) := by
  refine ⟨template_compile c t, ?_⟩
  rw [template_compileDirectives]
  cases hnodes : Rendering.nodesOf t.own.delimiters c.limits.directiveDepth false contents with
  | error f =>
    refine ⟨t.own.parts, Template.runDirectives_of_nodesOf_error hnodes, fun _ => rfl, ?_⟩
    intro ss ns hss hns
    rw [Rendering.nodesOf, hss] at hnodes
    cases hnodes.symm.trans hns
  | ok nodes =>
    rw [Template.runDirectives_of_nodesOf hnodes, Template.register_eq]
    refine ⟨_, rfl, ?_, ?_⟩
    · intro hnone
      obtain ⟨ss, ps, hss, hps, rfl⟩ := nodesOf_eq_ok_iff.mp hnodes
      exact absurd (parseNodes_of_items hps) (hnone ss _ hss)
    · intro ss ns hss hns
      rw [Rendering.nodesOf, hss] at hnodes
      cases hns.symm.trans hnodes
      refine ⟨_, ?_, rfl, fun name => Dict.get?_insertAll_last _ _ name⟩
      rw [← written_definitionsIn hns]
      exact namesParts_nameParts _ _

/-- A page that has two parts and writes others: one twice, first in a branch that is not taken, and
one behind a part that has no name. -/
def ledger : Template :=
  { own :=
      { contents :=
          "<% if(0) %><% part(1) %>a<% endpart %><% endif %><% part(1) %>b<% endpart %>".toList ++
            "<% part($no) %>c<% endpart %><% part(2) %>d<% endpart %>".toList
        parts := .ofList [("1".toList, "e".toList), ("3".toList, "f".toList)] } }

/-- The page keeps its parts where it cannot be parsed. Else the last part of a name is registered,
and none from the one without a name on. -/
theorem parts_of_compilation_ledger :
    let c : Compiler := .usual
    (c.compileDirectives ledger "<% part(1) %>g".toList).1 = ledger ∧
      ∃ ss ns named, segments {} ledger.own.contents = .ok ss ∧ parseNodes 32 false ss = .ok ns ∧
        (ledger.scope .usual).NamesParts (writtenParts ss) named ∧
        (c.compile ledger).1.own.parts = ledger.own.parts.insertAll named ∧
        (["1", "2", "3"].map fun name => (c.compile ledger).1.own.parts.get? name.toList) =
          [some "b".toList, none, some "f".toList] := by
  intro c
  constructor
  · have hfails : (Rendering.nodesOf {} 32 false "<% part(1) %>g".toList).isOk = false := by
      decide +kernel
    obtain ⟨-, parts, hparts, hkept, -⟩ := parts_of_compilation c ledger "<% part(1) %>g".toList
    rw [hparts, hkept]
    intro ss ns hss hns
    rw [Rendering.nodesOf, show segments {} _ = _ from hss] at hfails
    cases hfails.symm.trans (congrArg Except.isOk (show parseNodes 32 false ss = _ from hns))
  · have hlookups :
        (["1", "2", "3"].map fun name => (c.compile ledger).1.own.parts.get? name.toList) =
          [some "b".toList, none, some "f".toList] := by
      decide +kernel
    have hok : (Rendering.nodesOf {} 32 false ledger.own.contents).isOk = true := by
      decide +kernel
    cases hnodes : Rendering.nodesOf {} 32 false ledger.own.contents with
    | error f =>
      rw [hnodes] at hok
      cases hok
    | ok ns =>
      obtain ⟨ss, ps, hss, hps, rfl⟩ := nodesOf_eq_ok_iff.mp hnodes
      have hns := parseNodes_of_items hps
      obtain ⟨htemplate, parts, hparts, -, hwritten⟩ :=
        parts_of_compilation c ledger ledger.own.contents
      obtain ⟨named, hnamed, rfl, -⟩ := hwritten ss _ hss hns
      refine ⟨ss, _, named, hss, hns, hnamed, ?_, hlookups⟩
      rw [htemplate, hparts]

end Compiler

end Stencil
