/- Contents without directives, which the tag stage compiles alone. -/
import Stencil.Proofs.Node.Parsing
import Stencil.Proofs.Segment.ErrorLines
import Stencil.Proofs.Splice.Tagging
import Stencil.Segment.Token
import Stencil.Usual

namespace Stencil

variable {ss : List Segment}

/-- The characters before a line hold as many newlines as there are lines before it. -/
theorem Text.newlines_take_lineStart {t : Text} {n : Nat} (h : Text.HasLine 1 t n) :
    1 + newlines (t.take (lineStart n t)) = n := by
  induction t generalizing n with
  | nil =>
    obtain ⟨hfirst, hlast⟩ := h
    exact Nat.le_antisymm hfirst hlast
  | cons c cs ih =>
    obtain ⟨hfirst, hlast⟩ := h
    rw [newlines_cons] at hlast
    rw [lineStart]
    by_cases hn : n ≤ 1
    · rw [if_pos hn]
      exact Nat.le_antisymm hfirst hn
    · rw [if_neg hn, Nat.add_comm 1 (lineStart _ cs), List.take_succ_cons, newlines_cons]
      by_cases hc : c = '\n'
      · subst hc
        have hone : newlines ['\n'] = 1 := rfl
        rw [hone] at hlast
        have hrest := ih (n := n - 1) ⟨by omega, by omega⟩
        rw [if_pos rfl, hone]
        omega
      · have hnone : newlines [c] = 0 := List.count_eq_zero.mpr (by simp [Ne.symm hc])
        rw [hnone] at hlast
        have hrest := ih (n := n) ⟨hfirst, by omega⟩
        rw [if_neg hc, hnone]
        omega

namespace Splice

theorem text_whole (t : Text) : (whole t).text = t := List.append_nil t

/-- A source stands on its own lines. -/
theorem sourceLine_whole {t : Text} {n : Nat} (h : Text.HasLine 1 t n) :
    (whole t).sourceLine n = n := by
  rw [sourceLine, text_whole]
  exact Text.newlines_take_lineStart h

/-- The splices read the same and stand on the same source lines, however they are cut. -/
structure Agrees (s u : Splice) : Prop where
  text : s.text = u.text
  lineAt : ∀ n, s.lineAt n = u.lineAt n

theorem Agrees.sourceLine {s u : Splice} (h : s.Agrees u) (n : Nat) :
    s.sourceLine n = u.sourceLine n := by
  unfold Splice.sourceLine
  rw [h.text, h.lineAt]

end Splice

namespace Tagging

variable (g : Tagging) {s u : Splice}

theorem replaceFrom_of_agrees (h : s.Agrees u) (position : Nat) (ss : List Segment) :
    g.replaceFrom s position ss = g.replaceFrom u position ss := by
  induction ss generalizing position with
  | nil => rfl
  | cons segment ss ih => rw [replaceFrom, replaceFrom, h.lineAt, ih]

theorem run_of_agrees (h : s.Agrees u) : g.run s = g.run u := by
  rw [run, run, h.text]
  cases segments g.template.own.delimiters u.text with
  | error e =>
    dsimp only
    rw [h.sourceLine]
  | ok ss => exact g.replaceFrom_of_agrees h 0 ss

end Tagging

/-- Segments as pieces of the source, one behind the other. -/
def Splice.copies (before : Text) : List Segment → Splice
  | [] => []
  | s :: ss => ⟨s.raw, before.endLine, true⟩ :: copies (before ++ s.raw) ss

namespace Splice

theorem text_copies (before : Text) (ss : List Segment) : text (copies before ss) = source ss := by
  induction ss generalizing before with
  | nil => rfl
  | cons s ss ih => exact congrArg (s.raw ++ ·) (ih (before ++ s.raw))

-- No piece at all answers with the first line, so there has to be one.
theorem lineAt_copies (before : Text) (hss : ss ≠ []) (n : Nat) :
    lineAt (copies before ss) n = (before ++ (source ss).take n).endLine := by
  induction ss generalizing before n with
  | nil => exact absurd rfl hss
  | cons s ss ih =>
    rw [Text.endLine_append, source_cons, List.take_append]
    cases ss with
    | nil =>
      rw [source_nil, List.take_nil, List.append_nil]
      rfl
    | cons next ss =>
      show (if n < s.raw.length then before.endLine + Text.newlines (s.raw.take n)
        else lineAt (copies (before ++ s.raw) (next :: ss)) (n - s.raw.length)) = _
      split
      next hn =>
        rw [Nat.sub_eq_zero_of_le (Nat.le_of_lt hn), List.take_zero, List.append_nil]
      next hn =>
        rw [ih _ (List.cons_ne_nil _ _), Text.endLine_append, Text.endLine_append,
          List.take_of_length_le (Nat.le_of_not_lt hn), Text.newlines_append, Nat.add_assoc]

/-- The segments of a source agree with it as it stands. -/
theorem copies_agrees (ss : List Segment) : (copies [] ss).Agrees (whole (source ss)) where
  text := by rw [text_copies, text_whole]
  lineAt := by
    intro n
    cases ss with
    | nil => cases n <;> rfl
    | cons s ss => exact lineAt_copies [] (List.cons_ne_nil s ss) n

end Splice

/-- A text has no node but its segments if none is a directive. -/
theorem items_of_verbatim (inPart : Bool) (room : Nat) (before : Text)
    (hss : ∀ s ∈ ss, s.isDirective = false) :
    ∃ ps, Items inPart room before ss ps ∧ definitionsIn (PlacedNode.nodes ps) = [] ∧
      ∀ (r : Rendering) expand part,
        r.renderNodes expand part (.source 1) (PlacedNode.nodes ps) =
          .ok (Splice.copies before ss) := by
  induction ss generalizing before with
  | nil => exact ⟨[], .nil, rfl, fun _ _ _ => rfl⟩
  | cons s ss ih =>
    obtain ⟨hs, hss⟩ := List.forall_mem_cons.mp hss
    obtain ⟨ps, hps, hnone, hrender⟩ := ih (before ++ s.raw) hss
    refine ⟨.text s.raw before :: ps, .text hs hps, hnone, fun r expand part => ?_⟩
    have hline : Origin.line (.source 1) before.endLine = before.endLine := by
      show 1 + (1 + before.newlines - 1) = 1 + before.newlines
      omega
    rw [PlacedNode.nodes, Rendering.renderNodes, hrender, PlacedNode.node, Rendering.renderNode,
      hline]
    rfl

theorem isDirective_of_tokensFrom {line offset : Nat}
    (h : ∀ k ∈ tokensFrom line offset ss, k.kind ≠ .opening .directive) :
    ∀ s ∈ ss, s.isDirective = false := by
  induction ss generalizing line offset with
  | nil => nofun
  | cons s ss ih =>
    obtain ⟨hs, hss⟩ := List.forall_mem_append.mp h
    refine List.forall_mem_cons.mpr ⟨?_, ih hss⟩
    cases s with
    | directive opening lead name argument closing =>
      exact absurd rfl (hs _ (List.mem_cons_self ..))
    | _ => rfl

/-- Segments without directives are left as they are and register nothing. -/
theorem Template.runDirectives_of_verbatim {t : Template} {contents : Text}
    (hsegments : segments t.own.delimiters contents = .ok ss)
    (hss : ∀ s ∈ ss, s.isDirective = false) (fs : Functions) (limits : Limits) :
    t.runDirectives fs limits contents = (t, .ok (Splice.copies [] ss)) := by
  obtain ⟨ps, hps, hnone, hrender⟩ :=
    items_of_verbatim false limits.directiveDepth [] hss
  have hnodes : Rendering.nodesOf t.own.delimiters limits.directiveDepth false contents =
      .ok (PlacedNode.nodes ps) := by
    rw [Rendering.nodesOf, hsegments]
    exact parseNodes_of_items hps
  rw [runDirectives, hnodes]
  dsimp only
  rw [hnone]
  exact congrArg (Prod.mk t) (hrender _ _ _)

namespace Compiler

theorem alike_setContents (c : Compiler) (t : Template) (contents : Text) :
    (c.tagging t).Alike (c.tagging (t.setContents contents)) :=
  ⟨rfl, rfl, rfl, rfl, rfl⟩

theorem compile_of_error {c : Compiler} {t u : Template} {f : Failure}
    (h : t.runDirectives c.functions c.limits t.own.contents = (u, .error f)) :
    c.compile t = (u, .error f) := by
  rw [compile, h]

theorem compile_of_ok {c : Compiler} {t u : Template} {s : Splice}
    (h : t.runDirectives c.functions c.limits t.own.contents = (u, .ok s)) :
    c.compile t = (u, (c.tagging u).run s) := by
  rw [compile, h]

/-- Contents that do not lex or hold no directive are compiled by the tag stage alone, down to the
lines of its failures, and leave the template as it was. -/
theorem compile_eq_compileTags (c : Compiler) (t : Template) (contents : Text)
    (h : ∀ ks, tokenize t.own.delimiters contents = .ok ks →
      ∀ k ∈ ks, k.kind ≠ .opening .directive) :
    c.compile (t.setContents contents) = (t.setContents contents, c.compileTags t contents) := by
  cases hsegments : segments t.own.delimiters contents with
  | error e =>
    have hnodes : Rendering.nodesOf (t.setContents contents).own.delimiters
        c.limits.directiveDepth false contents = .error e.failure := by
      show Rendering.nodesOf t.own.delimiters _ _ _ = _
      rw [Rendering.nodesOf, hsegments]
    have hdirectives : (t.setContents contents).runDirectives c.functions c.limits contents =
        (t.setContents contents, .error e.failure) := by
      rw [Template.runDirectives, hnodes]
    have hlines : segments (c.tagging t).template.own.delimiters (Splice.whole contents).text =
        .error e := by
      rw [Splice.text_whole]
      exact hsegments
    rw [compile_of_error hdirectives, compileTags, Tagging.run, hlines]
    dsimp only
    rw [Splice.sourceLine_whole (hasLine_of_segments hsegments)]
    rfl
  | ok ss =>
    have hverbatim : ∀ s ∈ ss, s.isDirective = false := by
      refine isDirective_of_tokensFrom (h (tokensFrom 1 0 ss) ?_)
      rw [tokenize, hsegments]
      rfl
    have hdirectives : (t.setContents contents).runDirectives c.functions c.limits contents =
        (t.setContents contents, .ok (Splice.copies [] ss)) := by
      apply Template.runDirectives_of_verbatim
      · exact hsegments
      · exact hverbatim
    have hagrees := Splice.copies_agrees ss
    rw [source_segments hsegments] at hagrees
    rw [compile_of_ok hdirectives, compileTags, Tagging.run_of_agrees _ hagrees,
      (c.alike_setContents t contents).run]

/-- One of the tags has a value that holds the other one. -/
def twofold : Template :=
  ⟨{ tags := .ofList [("x".toList, "1\n\x7b\x7b y \x7d\x7d".toList)] },
    [{ tags := .ofList [("y".toList, "<2>".toList)] }]⟩

/-- Behind a tag of two lines, the tag without a value stands on the third line, and so does the
string that is never closed. -/
theorem compile_eq_compileTags_twofold :
    let c : Compiler := .usual
    let tag := "a\n\x7b\x7b x\n\x7d\x7d".toList
    let tagged := tag ++ " \x7b\x7b no \x7d\x7d".toList
    let broken := tag ++ " \x7b\x7b \"".toList
    (∀ contents ∈ [tag, tagged, broken], ∀ ks, tokenize {} contents = .ok ks →
        ∀ k ∈ ks, k.kind ≠ .opening .directive) ∧
      c.compile (twofold.setContents tag) =
        (twofold.setContents tag, .ok "a\n1\n&amp;lt;2&amp;gt;".toList) ∧
      c.compile (twofold.setContents tagged) =
        (twofold.setContents tagged, .error ⟨.evaluation (.unresolvedIdentifier "no".toList), 3⟩) ∧
      c.compile (twofold.setContents broken) =
        (twofold.setContents broken, .error ⟨.lexical (.unterminatedString 3 3 '"'), 3⟩) := by
  intro c tag tagged broken
  have hplain : ∀ contents ∈ [tag, tagged, broken], ∀ ks, tokenize {} contents = .ok ks →
      ∀ k ∈ ks, k.kind ≠ .opening .directive := by
    have hkinds : ∀ contents ∈ [tag, tagged, broken],
        (tokenize {} contents).toOption.all (·.all (·.kind ≠ .opening .directive)) = true := by
      decide +kernel
    intro contents hmem ks hks
    have hall := hkinds contents hmem
    rw [hks] at hall
    simpa [Except.toOption] using hall
  have htag := compile_eq_compileTags c twofold tag (hplain tag (by simp))
  have htagged := compile_eq_compileTags c twofold tagged (hplain tagged (by simp))
  have hbroken := compile_eq_compileTags c twofold broken (hplain broken (by simp))
  refine ⟨hplain, htag.trans ?_, htagged.trans ?_, hbroken.trans ?_⟩
  · exact congrArg (Prod.mk _) (by decide +kernel)
  · exact congrArg (Prod.mk _) (by decide +kernel)
  · exact congrArg (Prod.mk _) (by decide +kernel)

end Compiler

end Stencil
