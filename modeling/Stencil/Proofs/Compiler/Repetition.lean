/- Compiling a template again: the parts that the first time left behind change nothing. -/
import Stencil.Proofs.Compiler.Registration
import Stencil.Proofs.Compiler.TagStage

namespace Stencil

/-- Pairs that were set last may be set again. -/
theorem Dict.insertAll_insertAll {α : Type} (pairs : List (Text × α)) (d : Dict α) :
    insertAll pairs (insertAll pairs d) = insertAll pairs d := by
  apply ext
  intro name
  rw [get?_insertAll_last, get?_insertAll_last]
  cases pairs.reverse.find? fun p => p.1 = name with
  | some _ => rfl
  | none => rfl

namespace Template

theorem register_register (ps : List NamedPart) (t : Template) :
    (t.register ps).register ps = t.register ps := by
  rw [register_eq ps (t.register ps), register_eq ps t]
  simp only [Dict.insertAll_insertAll]

@[simp] theorem contents_register (ps : List NamedPart) (t : Template) :
    (t.register ps).own.contents = t.own.contents := by
  rw [register_eq]

theorem contents_runDirectives (t : Template) (fs : Functions) (limits : Limits)
    (contents : Text) :
    (t.runDirectives fs limits contents).1.own.contents = t.own.contents := by
  cases hnodes : Rendering.nodesOf t.own.delimiters limits.directiveDepth false contents with
  | error f => rw [runDirectives_of_nodesOf_error hnodes]
  | ok nodes => rw [runDirectives_of_nodesOf hnodes, contents_register]

/-- Names and delimiters do not depend on the parts that are registered, and to register the same
parts again has no effect, be they all or those ahead of one without a name. -/
theorem runDirectives_again (t : Template) (fs : Functions) (limits : Limits) (contents : Text) :
    (t.runDirectives fs limits contents).1.runDirectives fs limits contents =
      t.runDirectives fs limits contents := by
  cases hnodes : Rendering.nodesOf t.own.delimiters limits.directiveDepth false contents with
  | error f => rw [runDirectives_of_nodesOf_error hnodes]
  | ok nodes =>
    cases hparts : nameParts (t.scope fs) (definitionsIn nodes) with
    | mk parts failure =>
      have hnodes' := hnodes
      have hparts' := hparts
      rw [← delimiters_register parts t] at hnodes'
      rw [← scope_register parts t] at hparts'
      cases failure with
      | some f =>
        rw [runDirectives_of_unnamed hnodes hparts]
        dsimp only
        rw [runDirectives_of_unnamed hnodes' hparts', register_register]
      | none =>
        rw [runDirectives_of_named hnodes hparts]
        dsimp only
        rw [runDirectives_of_named hnodes' hparts', register_register]

end Template

/-- Compiling the same template twice has the same result both times, down to the lines of failures,
and leaves the same template behind. -/
theorem Compiler.compile_again (c : Compiler) (t : Template) :
    c.compile (c.compile t).1 = c.compile t := by
  have hcontents := t.contents_runDirectives c.functions c.limits t.own.contents
  have hrepeat := t.runDirectives_again c.functions c.limits t.own.contents
  cases hrun : t.runDirectives c.functions c.limits t.own.contents with
  | mk u result =>
    rw [hrun] at hcontents hrepeat
    have hagain : u.runDirectives c.functions c.limits u.own.contents = (u, result) := by
      rw [hcontents]
      exact hrepeat
    cases result with
    | error f =>
      rw [compile_of_error hrun]
      exact compile_of_error hagain
    | ok s =>
      rw [compile_of_ok hrun]
      exact compile_of_ok hagain

end Stencil
