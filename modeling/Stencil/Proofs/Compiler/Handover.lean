/- What the directive stage hands over to the tag stage, and what that finds in it. -/
import Stencil.Proofs.Splice.Copies
import Stencil.Usual

namespace Stencil

/-- What the directive stage hands over is put together from segments of the contents and of the
bodies of parts. The tag stage finds them again, with texts side by side made one, exactly if none
of them runs into the next ones; and then it finds their tags and escaped openings and no others. -/
theorem Compiler.segments_of_compileDirectives {c : Compiler} {t u : Template} {contents out : Text}
    (hds : t.own.delimiters.Closes) (h : c.compileDirectives t contents = (u, .ok out)) :
    ∃ s, t.runDirectives c.functions c.limits contents = (u, .ok s) ∧ s.text = out ∧
      (∃ xs, u.Hands contents s xs) ∧ ∀ xs, u.Hands contents s xs →
        (segments t.own.delimiters out = .ok (joinTexts xs) ↔ t.own.delimiters.Seamless xs) ∧
        (t.own.delimiters.Seamless xs → ∃ ss, segments t.own.delimiters out = .ok ss ∧
          ss.filter Segment.isTagLike = xs.filter Segment.isTagLike) := by
  cases hrun : t.runDirectives c.functions c.limits contents with
  | mk v result =>
    rw [compileDirectives, hrun] at h
    obtain ⟨rfl, hout⟩ := Prod.mk.inj h
    obtain ⟨s, rfl, rfl⟩ := Outcome.map_eq_ok_iff.mp hout
    obtain ⟨nodes, parts, hnodes, -, rfl, hs⟩ := Template.exists_of_runDirectives hrun
    rw [← Template.delimiters_register parts t] at hnodes hds ⊢
    have hands := Template.exists_hands_of_supplies (Rendering.supplies_of_render hnodes hs)
    refine ⟨s, rfl, rfl, hands, fun xs hxs => ?_⟩
    have hcut := hxs.segments_eq_ok_iff hds
    refine ⟨hcut, fun hseamless => ?_⟩
    exact ⟨joinTexts xs, hcut.mpr hseamless, filter_joinTexts xs⟩

namespace Template

/-- A page that shows a part with a tag behind an escaped opening. -/
def patched : Template :=
  { own :=
      { contents :=
          "a<% part('p') %>\x7b\x7b x \x7d\x7d<% endpart %>\\\x7b\x7b<% show('p') %>".toList } }

/-- A page without a tag, where a part is defined between two braces. -/
def fused : Template :=
  { own := { contents := "\x7b<% part('p') %>x<% endpart %>\x7b a \x7d\x7d".toList } }

end Template

/-- The tag of the part is found behind the escaped opening. -/
theorem Compiler.segments_of_compileDirectives_patched : ∃ u out,
    ({} : DelimiterSet).Closes ∧
      Compiler.usual.compileDirectives .patched Template.patched.own.contents = (u, .ok out) ∧
      out = "a\\\x7b\x7b\x7b\x7b x \x7d\x7d".toList ∧
      ∃ s, Template.patched.runDirectives .usual {} Template.patched.own.contents = (u, .ok s) ∧
        s.text = out ∧ (∃ xs, u.Hands Template.patched.own.contents s xs) ∧
        ∀ xs, u.Hands Template.patched.own.contents s xs →
          (segments {} out = .ok (joinTexts xs) ↔ ({} : DelimiterSet).Seamless xs) ∧
          (({} : DelimiterSet).Seamless xs → ∃ ss, segments {} out = .ok ss ∧
            ss.filter Segment.isTagLike = xs.filter Segment.isTagLike) := by
  have hout : (Compiler.usual.compileDirectives .patched Template.patched.own.contents).2 =
      .ok "a\\\x7b\x7b\x7b\x7b x \x7d\x7d".toList := by
    decide +kernel
  cases hrun : Compiler.usual.compileDirectives .patched Template.patched.own.contents with
  | mk u result =>
    rw [hrun] at hout
    cases hout
    have hcloses : Template.patched.own.delimiters.Closes := DelimiterSet.closes_usual
    have hhanded := segments_of_compileDirectives hcloses hrun
    exact ⟨u, _, hcloses, rfl, rfl, hhanded⟩

/-- Two texts are handed over, and the tag stage finds a tag. -/
theorem Compiler.exists_tag_across_seam : ∃ u s xs,
    Template.fused.runDirectives .usual {} Template.fused.own.contents = (u, .ok s) ∧
      xs = [.text "\x7b".toList, .text "\x7b a \x7d\x7d".toList] ∧
      u.Hands Template.fused.own.contents s xs ∧
      segments {} s.text =
        .ok [.tag .sanitized "\x7b\x7b".toList " a ".toList "\x7d\x7d".toList] := by
  have hss : segments {} Template.fused.own.contents = .ok
      [.text "\x7b".toList,
        .directive "<%".toList " ".toList "part".toList "('p') ".toList "%>".toList,
        .text "x".toList,
        .directive "<%".toList " ".toList "endpart".toList " ".toList "%>".toList,
        .text "\x7b a \x7d\x7d".toList] := by
    decide +kernel
  have hsplice : (Template.fused.runDirectives .usual {} Template.fused.own.contents).2 =
      .ok [⟨"\x7b".toList, 1, true⟩, ⟨"\x7b a \x7d\x7d".toList, 1, true⟩] := by
    decide +kernel
  have htag : segments {} "\x7b\x7b a \x7d\x7d".toList =
      .ok [.tag .sanitized "\x7b\x7b".toList " a ".toList "\x7d\x7d".toList] := by
    decide +kernel
  cases hrun : Template.fused.runDirectives .usual {} Template.fused.own.contents with
  | mk u result =>
    rw [hrun] at hsplice
    cases hsplice
    obtain ⟨nodes, parts, -, -, rfl, -⟩ := Template.exists_of_runDirectives hrun
    rw [← show (Template.fused.register parts).own.delimiters = {} from
      Template.delimiters_register parts .fused] at hss
    refine ⟨_, _, _, rfl, rfl, ⟨rfl, ?_⟩, htag⟩
    refine List.forall_mem_cons.mpr ⟨⟨rfl, _, _, .inl rfl, hss, by simp⟩, ?_⟩
    exact List.forall_mem_singleton.mpr ⟨rfl, _, _, .inl rfl, hss, by simp⟩

end Stencil
