/- Compiling with higher limits. -/
import Stencil.Proofs.Splice.Limit
import Stencil.Usual

namespace Stencil

open Outcome

namespace Compiler

variable {c : Compiler} {more : Limits}

def withLimits (c : Compiler) (limits : Limits) : Compiler := { c with limits }

theorem tagging_withLimits (t : Template) :
    (c.withLimits more).tagging t = (c.tagging t).withLimit more.tagDepth := rfl

theorem keptUnless_compileTags (htag : c.limits.tagDepth ≤ more.tagDepth) (t : Template)
    (contents : Text) :
    KeptUnless Failure.IsLimit (c.compileTags t contents)
      ((c.withLimits more).compileTags t contents) := by
  rw [compileTags, compileTags, tagging_withLimits]
  exact Tagging.keptUnless_run htag (.whole contents)

theorem keptUnless_compileDirectives (hdirective : c.limits.directiveDepth ≤ more.directiveDepth)
    (t : Template) (contents : Text) :
    (c.withLimits more).compileDirectives t contents = c.compileDirectives t contents ∨
      ∃ f, (c.compileDirectives t contents).2 = .error f ∧ f.IsLimit := by
  rw [compileDirectives, compileDirectives, withLimits]
  rcases t.keptUnless_runDirectives c.functions hdirective contents with heq | ⟨f, hf, hcut⟩
  · rw [heq]
    exact .inl rfl
  · exact .inr ⟨f, map_eq_error_iff.mpr hf, hcut⟩

theorem keptUnless_compile (htag : c.limits.tagDepth ≤ more.tagDepth)
    (hdirective : c.limits.directiveDepth ≤ more.directiveDepth) (t : Template) :
    (c.withLimits more).compile t = c.compile t ∨
      ∃ f, (c.compile t).2 = .error f ∧ f.IsLimit := by
  rw [compile, compile, withLimits]
  rcases t.keptUnless_runDirectives c.functions hdirective t.own.contents with
    heq | ⟨f, hf, hcut⟩
  · rw [heq]
    cases t.runDirectives c.functions c.limits t.own.contents with
    | mk registered result =>
      cases result with
      | error f => exact .inl rfl
      | ok s =>
        rcases (c.tagging registered).keptUnless_run htag s with heq | hcut
        · exact .inl (congrArg (Prod.mk registered) heq)
        · exact .inr hcut
  · refine .inr ⟨f, ?_, hcut⟩
    cases hrun : t.runDirectives c.functions c.limits t.own.contents with
    | mk registered result =>
      rw [hrun] at hf
      cases hf
      rfl

/-- Higher limits change nothing, neither the result nor the parts that are registered, unless it
was a limit that was reported. -/
theorem unchanged_of_limits_le (c : Compiler) (more : Limits)
    (htag : c.limits.tagDepth ≤ more.tagDepth)
    (hdirective : c.limits.directiveDepth ≤ more.directiveDepth) (t : Template)
    (contents : Text) :
    ((∀ f, (c.compile t).2 = .error f → f.cause.kind ≠ .recursionLimit) →
        (c.withLimits more).compile t = c.compile t) ∧
      ((∀ f, (c.compileDirectives t contents).2 = .error f → f.cause.kind ≠ .recursionLimit) →
        (c.withLimits more).compileDirectives t contents = c.compileDirectives t contents) ∧
      ((∀ f, c.compileTags t contents = .error f → f.cause.kind ≠ .recursionLimit) →
        (c.withLimits more).compileTags t contents = c.compileTags t contents) := by
  refine ⟨fun hfree => ?_, fun hfree => ?_, fun hfree => ?_⟩
  · exact (keptUnless_compile htag hdirective t).resolve_right
      fun ⟨f, hf, hcut⟩ => hfree f hf hcut
  · exact (keptUnless_compileDirectives hdirective t contents).resolve_right
      fun ⟨f, hf, hcut⟩ => hfree f hf hcut
  · exact (keptUnless_compileTags htag t contents).resolve_right
      fun ⟨f, hf, hcut⟩ => hfree f hf hcut

/-- A compiler that allows one level of each kind. -/
def shallow : Compiler := { Compiler.usual with limits := ⟨1, 1⟩ }

/-- A part with a tag whose value holds a tag. -/
def nested : Template :=
  ⟨{ contents := "<% show('p') %>\x7b\x7b c \x7d\x7d".toList,
     tags := .ofList [("b".toList, "<\x7b\x7b c \x7d\x7d>".toList), ("c".toList, "&".toList)],
     parts := .ofList [("p".toList, "\x7b\x7b! b !\x7d\x7d".toList)] }, []⟩

/-- One level is enough for it, and more change nothing. -/
theorem unchanged_of_limits_le_nested :
    (1 ≤ 2 ∧ 1 ≤ 3) ∧
      ((shallow.compile nested).2 = .ok "<&amp;>&amp;".toList ∧
        (shallow.withLimits ⟨2, 3⟩).compile nested = shallow.compile nested) ∧
      ((shallow.compileDirectives nested nested.own.contents).2 =
          .ok "\x7b\x7b! b !\x7d\x7d\x7b\x7b c \x7d\x7d".toList ∧
        (shallow.withLimits ⟨2, 3⟩).compileDirectives nested nested.own.contents =
          shallow.compileDirectives nested nested.own.contents) ∧
      shallow.compileTags nested nested.own.contents =
          .ok "<% show('p') %>&amp;".toList ∧
        (shallow.withLimits ⟨2, 3⟩).compileTags nested nested.own.contents =
          shallow.compileTags nested nested.own.contents := by
  have hboth : (shallow.compile nested).2 = .ok "<&amp;>&amp;".toList := by decide +kernel
  have hdirectives : (shallow.compileDirectives nested nested.own.contents).2 =
      .ok "\x7b\x7b! b !\x7d\x7d\x7b\x7b c \x7d\x7d".toList := by decide +kernel
  have htags : shallow.compileTags nested nested.own.contents =
      .ok "<% show('p') %>&amp;".toList := by decide +kernel
  obtain ⟨hkept, hkeptDirectives, hkeptTags⟩ := unchanged_of_limits_le shallow ⟨2, 3⟩ (by decide)
    (by decide) nested nested.own.contents
  refine ⟨by decide, ⟨hboth, hkept fun f hf => ?_⟩, ⟨hdirectives, hkeptDirectives fun f hf => ?_⟩,
    htags, hkeptTags fun f hf => ?_⟩
  · cases hboth.symm.trans hf
  · cases hdirectives.symm.trans hf
  · cases htags.symm.trans hf

end Compiler

end Stencil
