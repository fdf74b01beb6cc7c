/- What sanitized tags put into the text around them. -/
import Stencil.Proofs.Escape.Entities
import Stencil.Proofs.Splice.Pieces
import Stencil.Usual

namespace Stencil

open Entity

/-- What stands for a segment where markup is escaped: a sanitized tag brings in no markup, and its
value reads back from what it brings in. -/
def Tagging.Sanitizes (g : Tagging) (s : Segment) (p : Text) : Prop :=
  match s with
  | .text t => p = t
  | .escapedOpening opening => p = opening
  | .directive opening lead name argument closing =>
    p = (Segment.directive opening lead name argument closing).raw
  | .tag .unsanitized _ body _ => ∀ value, g.Expands body.trim value ↔ value = p
  | .tag .sanitized _ body _ =>
    Harmless p ∧ ∀ value, g.Expands body.trim value ↔ value = decode p

theorem Tagging.Piece.sanitizes {g : Tagging} (hescape : g.escape = .html) {s : Segment} {p : Text}
    (h : g.Piece s p) : g.Sanitizes s p := by
  cases h with
  | text t => exact rfl
  | escapedOpening opening => exact rfl
  | directive => exact rfl
  | @tag kind opening body closing value hvalue =>
    have honly : ∀ other, g.Expands body.trim other ↔ other = value :=
      fun other => ⟨fun hother => hother.unique hvalue, fun heq => heq ▸ hvalue⟩
    cases kind with
    | unsanitized => exact honly
    | sanitized =>
      rw [insert, hescape]
      refine ⟨Escaper.harmless_html value, ?_⟩
      rw [Escaper.decode_html]
      exact honly

namespace Compiler

/-- Escaping keeps sanitized tags from injecting markup: the output has one piece for each segment,
and those of sanitized tags hold no markup but decode to the value of the tag. -/
theorem sanitizes_of_compileTags (c : Compiler) (t : Template) (contents : Text) {out : Text}
    (hescape : c.escape = .html) (h : c.compileTags t contents = .ok out) :
    ∃ ss ps, segments t.own.delimiters contents = .ok ss ∧ source ss = contents ∧
      ps.length = ss.length ∧ ps.flatten = out ∧
      ∀ s p, (s, p) ∈ ss.zip ps → (c.tagging t).Sanitizes s p := by
  obtain ⟨ss, ps, hss, hps, hout⟩ := Tagging.exists_pieces_of_run h
  have hcontents : (Splice.whole contents).text = contents := List.append_nil contents
  rw [hcontents] at hss
  exact ⟨ss, ps, hss, source_segments hss, hps.length_eq, hout,
    fun s p hmem => (hps.of_mem_zip hmem).sanitizes hescape⟩

/-- A tag with markup around a tag, which stands for markup as well. -/
def markedUp : Template :=
  ⟨{ tags := .ofList [("x".toList, "<i>\x7b\x7b y \x7d\x7d</i>".toList),
       ("y".toList, "\"&\"".toList)] }, []⟩

/-- Inside another tag it is escaped twice over. -/
theorem sanitizes_of_compileTags_markedUp :
    let contents := "<b> \x7b\x7b x \x7d\x7d \x7b\x7b! y !\x7d\x7d".toList
    let out := "<b> &lt;i&gt;&amp;quot;&amp;amp;&amp;quot;&lt;/i&gt; \"&\"".toList
    Compiler.usual.escape = .html ∧ compileTags .usual markedUp contents = .ok out ∧
      ∃ ss ps, segments {} contents = .ok ss ∧ source ss = contents ∧
        ps.length = ss.length ∧ ps.flatten = out ∧
        ∀ s p, (s, p) ∈ ss.zip ps → (tagging .usual markedUp).Sanitizes s p := by
  intro contents out
  have hout : compileTags .usual markedUp contents = .ok out := by decide +kernel
  exact ⟨rfl, hout, sanitizes_of_compileTags .usual markedUp contents rfl hout⟩

end Compiler

end Stencil
