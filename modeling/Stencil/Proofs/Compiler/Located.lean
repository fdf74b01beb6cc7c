/- Failures name a line of the source that was compiled, and reports show it. -/
import Stencil.Failure.Diagnostic
import Stencil.Proofs.Compiler.FaultLines
import Stencil.Proofs.Splice.ChunkLines

namespace Stencil

/-- The report of a diagnostic that names a line of the source: it shows the line, named with the
file and a column. -/
structure Diagnostic.ShowsLine (d : Diagnostic) (source : Text) (line : Nat) : Prop where
  names : d.line = some line
  first_le : 1 ≤ line
  le_last : line ≤ 1 + source.newlines
  report : ∃ content, source.lines[line - 1]? = some content ∧ ∀ filename,
    let e := Excerpt.ofLine line content
    let margin := Diagnostic.spaces (toString line).length
    d.report source filename = "".intercalate
      (([s!"error: {d.kind.name}: {d.message}", s!" --> {filename}:{line}:{e.column}",
        s!"{margin} |", s!"{line} | {e.shown.string}",
        s!"{margin} | {Diagnostic.spaces e.caret}^"] ++
          (d.help.map fun help => s!"help: {help}").toList).map (· ++ "\n"))

theorem Diagnostic.showsLine_of_hasLine {d : Diagnostic} {source : Text} {line : Nat}
    (hd : d.line = some line) (h : Text.HasLine 1 source line) : d.ShowsLine source line := by
  obtain ⟨hfirst, hlast⟩ := h
  have hindex : line - 1 < source.lines.length := by
    rw [Text.length_lines]
    omega
  have hcontent : source.lines[line - 1]? = some source.lines[line - 1] :=
    List.getElem?_eq_getElem hindex
  have hexcerpt : d.excerpt? source = some (Excerpt.ofLine line source.lines[line - 1]) := by
    rw [Diagnostic.excerpt?, hd]
    show Excerpt.at? source line = _
    rw [Excerpt.at?, if_neg (by omega), hcontent]
    rfl
  refine ⟨hd, hfirst, hlast, _, hcontent, ?_⟩
  intro filename
  rw [Diagnostic.report, hexcerpt]
  cases d.help <;> rfl

/-- The failure names a line of the contents, which reports show. -/
def Failure.Located (contents : Text) (f : Failure) : Prop :=
  ∀ p : Platform, (f.diagnostic p).ShowsLine contents f.line

theorem Failure.located_of_hasLine {contents : Text} {f : Failure}
    (h : Text.HasLine 1 contents f.line) : f.Located contents :=
  fun _ => Diagnostic.showsLine_of_hasLine rfl h

/-- Failures of directives name lines of the contents. -/
theorem Template.hasLine_of_runDirectives {t u : Template} {fs : Functions} {limits : Limits}
    {contents : Text} {f : Failure} (h : t.runDirectives fs limits contents = (u, .error f)) :
    Text.HasLine 1 contents f.line := by
  obtain ⟨φ, hφ⟩ := exists_faulted_of_runDirectives h
  obtain ⟨hfailure, hstands⟩ := hφ.failure_and_stands h
  cases hfailure
  exact hstands.hasLine

namespace Compiler

/-- Whatever fails, be it in the contents, in a part that they bring in or in the value of a tag,
and before or after the directives are carried out: the failure names a line of the contents that
were compiled, and the report shows that line. -/
theorem failures_located (c : Compiler) (t : Template) (contents : Text) (f : Failure) :
    ((c.compileDirectives t contents).2 = .error f → f.Located contents) ∧
      (c.compileTags t contents = .error f → f.Located contents) ∧
      ((c.compile t).2 = .error f → f.Located t.own.contents) := by
  refine ⟨?_, ?_, ?_⟩
  · intro h
    apply Failure.located_of_hasLine
    have hresult := Outcome.map_eq_error_iff.mp h
    exact Template.hasLine_of_runDirectives (Prod.ext rfl hresult)
  · intro h
    apply Failure.located_of_hasLine
    exact Tagging.hasLine_of_run (Splice.liesIn_whole contents) h
  · intro h
    apply Failure.located_of_hasLine
    rw [compile] at h
    cases hrun : t.runDirectives c.functions c.limits t.own.contents with
    | mk u result =>
      rw [hrun] at h
      cases result with
      | error f' =>
        cases h
        exact Template.hasLine_of_runDirectives hrun
      | ok s => exact Tagging.hasLine_of_run (Template.liesIn_of_runDirectives hrun) h

/-- A page of two lines whose output has more. One part of its parent opens a tag together with the
text in front of it, and another one holds no directive that is known. -/
def overlong : Template :=
  ⟨{ contents := "\n\x7b<% show(1) %>".toList
     tags := .ofList [("b".toList, "\n\x7b\x7b no \x7d\x7d".toList)] },
    [{ parts := .ofList [("1".toList, "\x7b x\n\n\n".toList),
       ("2".toList, "\n<% no %>".toList)] }]⟩

/-- The tag that is never closed ends on the fifth line of the output, which is the second one of
the page. -/
theorem failures_located_overlong :
    let c : Compiler := .usual
    let unclosed : Failure :=
      ⟨.lexical (.unterminatedRegion .unterminatedTag 5 2 "\x7d\x7d".toList), 2⟩
    let unresolved : Failure := ⟨.evaluation (.unresolvedIdentifier "no".toList), 3⟩
    let unknown : Failure := ⟨.unknownDirective "no".toList, 2⟩
    ((c.compile overlong).2 = .error unclosed ∧ unclosed.Located overlong.own.contents) ∧
      (c.compileTags overlong "\n\n\x7b\x7b b \x7d\x7d".toList = .error unresolved ∧
        unresolved.Located "\n\n\x7b\x7b b \x7d\x7d".toList) ∧
      (c.compileDirectives overlong "\n<% show(2) %>".toList).2 = .error unknown ∧
        unknown.Located "\n<% show(2) %>".toList := by
  intro c unclosed unresolved unknown
  have hcompile : (c.compile overlong).2 = .error unclosed := by decide +kernel
  have htags : c.compileTags overlong "\n\n\x7b\x7b b \x7d\x7d".toList = .error unresolved := by
    decide +kernel
  have hdirectives :
      (c.compileDirectives overlong "\n<% show(2) %>".toList).2 = .error unknown := by
    decide +kernel
  refine ⟨⟨hcompile, ?_⟩, ⟨htags, ?_⟩, hdirectives, ?_⟩
  · exact (failures_located c overlong overlong.own.contents unclosed).2.2 hcompile
  · exact (failures_located c overlong _ unresolved).2.1 htags
  · exact (failures_located c overlong _ unknown).1 hdirectives

end Compiler

end Stencil
