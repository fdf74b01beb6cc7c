/- A sanitized tag is the unsanitized one, escaped at the end. -/
import Stencil.Proofs.Compiler.TagStage
import Stencil.Proofs.Segment.Concatenation
import Stencil.Proofs.Segment.SingleTag

namespace Stencil

namespace Tagging

variable (g : Tagging) (complete : Text → List Segment → Except Cause Text)

/-- The value of a trimmed tag body, in which the tags are replaced. -/
def resolve (body : Text) : Except Cause Text :=
  match g.valueOf body with
  | .error cause => .error cause
  | .ok value =>
    match taggedSegments? g.template.own.delimiters value with
    | none => .ok value
    | some ss => complete body ss

/-- Whether a tag is sanitized matters only when its value is there. -/
theorem replace_tag (kind : TagKind) (opening body closing : Text) :
    g.replace complete (.tag kind opening body closing) =
      (g.resolve complete body.trim).map (g.insert kind) := by
  rw [replace, resolve]
  cases g.valueOf body.trim with
  | error cause => rfl
  | ok value =>
    dsimp only
    cases taggedSegments? g.template.own.delimiters value with
    | none => rfl
    | some ss => rfl

theorem replace_sanitized (opening opening' closing closing' : Text) {body body' : Text}
    (h : body.trim = body'.trim) :
    g.replace complete (.tag .sanitized opening body closing) =
      (g.replace complete (.tag .unsanitized opening' body' closing')).map g.escape := by
  rw [replace_tag, replace_tag, Outcome.map_map, h]
  rfl

/-- A text that is one tag becomes the value of the tag, or fails on the first line. -/
theorem run_whole_tag {t : Text} {s : Segment}
    (h : segments g.template.own.delimiters t = .ok [s]) :
    g.run (Splice.whole t) =
      (g.replace (g.complete g.limit) s).mapError fun cause => ⟨cause, 1⟩ := by
  rw [run, Splice.text_whole, h]
  dsimp only
  rw [replaceFrom]
  cases g.replace (g.complete g.limit) s with
  | error cause => rfl
  | ok value => exact congrArg Except.ok (List.append_nil value)

end Tagging

/-- Two texts that are one tag, with the same text between the delimiters. -/
theorem DelimiterSet.segments_of_both_tags {e body : Text}
    (hsanitized : ({} : DelimiterSet).CutsOneTag .sanitized body
      ("\x7b\x7b".toList ++ (e ++ "\x7d\x7d".toList)))
    (hunsanitized : ({} : DelimiterSet).CutsOneTag .unsanitized body
      ("\x7b\x7b!".toList ++ (e ++ "!\x7d\x7d".toList))) :
    segments {} ("\x7b\x7b".toList ++ (e ++ "\x7d\x7d".toList)) =
        .ok [.tag .sanitized "\x7b\x7b".toList e "\x7d\x7d".toList] ∧
      segments {} ("\x7b\x7b!".toList ++ (e ++ "!\x7d\x7d".toList)) =
        .ok [.tag .unsanitized "\x7b\x7b!".toList e "!\x7d\x7d".toList] := by
  obtain ⟨b, rest, hb, hbody, hsource⟩ :=
    @CutsOneTag.exists_segments {} .sanitized ⟨"\x7b\x7b".toList, "\x7d\x7d".toList⟩ body _
      hsanitized closes_usual rfl (by decide)
  obtain ⟨b', rest', hb', hbody', hsource'⟩ :=
    @CutsOneTag.exists_segments {} .unsanitized ⟨"\x7b\x7b!".toList, "!\x7d\x7d".toList⟩ body _
      hunsanitized closes_usual rfl (by decide)
  obtain ⟨⟨rfl, hrest⟩, rfl, hrest'⟩ := Text.eq_of_closings (by decide) (by decide) (by decide)
    hsource hsource' (hbody.trans hbody'.symm)
  have hnil : ∀ {t : Text} {s : Segment} {ss : List Segment},
      segments {} t = .ok (s :: ss) → source ss = [] → ss = [] := by
    intro t s ss hss hsource
    cases ss with
    | nil => rfl
    | cons r ss =>
      have hne : r.raw ≠ [] := raw_ne_nil_of_segmentsFrom hss r (by simp)
      exact absurd (List.append_eq_nil_iff.mp hsource).1 hne
  rw [hnil hb hrest] at hb
  rw [hnil hb' hrest'] at hb'
  exact ⟨hb, hb'⟩

namespace Compiler

/-- To sanitize is to escape once, at the end: a text that is one tag comes to the escaped value of
the unsanitized tag with the same body, however many tags the values hold, and fails as that does,
for the same cause and on the same line. -/
theorem sanitized_eq_escaped (c : Compiler) (t : Template) {e body : Text}
    (husual : t.own.delimiters = {})
    (hsanitized : ({} : DelimiterSet).CutsOneTag .sanitized body
      ("\x7b\x7b".toList ++ (e ++ "\x7d\x7d".toList)))
    (hunsanitized : ({} : DelimiterSet).CutsOneTag .unsanitized body
      ("\x7b\x7b!".toList ++ (e ++ "!\x7d\x7d".toList))) :
    c.compileTags t ("\x7b\x7b".toList ++ (e ++ "\x7d\x7d".toList)) =
      (c.compileTags t ("\x7b\x7b!".toList ++ (e ++ "!\x7d\x7d".toList))).map c.escape := by
  obtain ⟨hcut, hcut'⟩ := DelimiterSet.segments_of_both_tags hsanitized hunsanitized
  rw [← husual] at hcut hcut'
  have hescape : (c.tagging t).escape = c.escape := rfl
  rw [compileTags, compileTags, (c.tagging t).run_whole_tag hcut,
    (c.tagging t).run_whole_tag hcut', ← Outcome.mapError_map, ← hescape,
    ← (c.tagging t).replace_sanitized _ _ _ _ _ rfl]

/-- The tag within the value is escaped where it stands, and what comes of both once more. Without a
value, both forms fail in the same way, on the line of the opening. -/
theorem sanitized_eq_escaped_twofold :
    let c : Compiler := .usual
    let sanitized := fun e : Text => "\x7b\x7b".toList ++ (e ++ "\x7d\x7d".toList)
    let unsanitized := fun e : Text => "\x7b\x7b!".toList ++ (e ++ "!\x7d\x7d".toList)
    let value := "\nx ".toList
    let missing := "no\n".toList
    let error : Failure := ⟨.evaluation (.unresolvedIdentifier "no".toList), 1⟩
    (∀ e ∈ [value, missing],
        ({} : DelimiterSet).CutsOneTag .sanitized (Text.trim e) (sanitized e) ∧
        ({} : DelimiterSet).CutsOneTag .unsanitized (Text.trim e) (unsanitized e) ∧
        c.compileTags twofold (sanitized e) =
          (c.compileTags twofold (unsanitized e)).map c.escape) ∧
      c.compileTags twofold (unsanitized value) = .ok "1\n&lt;2&gt;".toList ∧
      c.compileTags twofold (sanitized value) = .ok "1\n&amp;lt;2&amp;gt;".toList ∧
      c.compileTags twofold (unsanitized missing) = .error error ∧
      c.compileTags twofold (sanitized missing) = .error error := by
  intro c sanitized unsanitized value missing error
  have hforms : ∀ e ∈ [value, missing],
      ({} : DelimiterSet).CutsOneTag .sanitized (Text.trim e) (sanitized e) ∧
      ({} : DelimiterSet).CutsOneTag .unsanitized (Text.trim e) (unsanitized e) := by
    refine List.forall_mem_cons.mpr ⟨?_, List.forall_mem_singleton.mpr ?_⟩
    · exact ⟨⟨_, _, _, rfl, rfl, rfl, rfl, rfl⟩, ⟨_, _, _, rfl, rfl, rfl, rfl, rfl⟩⟩
    · exact ⟨⟨_, _, _, rfl, rfl, rfl, rfl, rfl⟩, ⟨_, _, _, rfl, rfl, rfl, rfl, rfl⟩⟩
  have hescaped : ∀ e ∈ [value, missing], c.compileTags twofold (sanitized e) =
      (c.compileTags twofold (unsanitized e)).map c.escape := by
    intro e he
    obtain ⟨hsanitized, hunsanitized⟩ := hforms e he
    exact sanitized_eq_escaped c twofold rfl hsanitized hunsanitized
  have hvalue : c.compileTags twofold (unsanitized value) = .ok "1\n&lt;2&gt;".toList := by
    decide +kernel
  have hmissing : c.compileTags twofold (unsanitized missing) = .error error := by
    decide +kernel
  refine ⟨fun e he => ⟨(hforms e he).1, (hforms e he).2, hescaped e he⟩, hvalue, ?_, hmissing, ?_⟩
  · rw [hescaped value (by simp), hvalue]
    decide +kernel
  · rw [hescaped missing (by simp), hmissing]
    rfl

end Compiler

end Stencil
