/- Any text can be written so that the tag stage gives it back, in contents and in values. -/
import Mathlib.Data.List.Infix
import Stencil.Proofs.Compiler.Untagged
import Stencil.Proofs.Segment.Literals

namespace Stencil

namespace Tagging

variable {g : Tagging} {inner : Text → List Segment → Except Cause Text} {ss ts : List Segment}
  {s : Segment} {out : Text}

/-- The tag stage takes the backslashes off escaped openings. -/
theorem replaceAll_of_spells {t : Text} (h : Spells ss t) : g.replaceAll inner ss = .ok t := by
  induction h with
  | nil => rfl
  | text u _ ih => rw [replaceAll, replace, ih]
  | escapedOpening opening _ ih => rw [replaceAll, replace, ih]

theorem replaceAll_cons_eq_ok_iff : g.replaceAll inner (s :: ss) = .ok out ↔
    ∃ first rest, g.replace inner s = .ok first ∧ g.replaceAll inner ss = .ok rest ∧
      out = first ++ rest := by
  rw [replaceAll]
  cases g.replace inner s with
  | error cause => simp
  | ok first =>
    cases g.replaceAll inner ss with
    | error cause => simp
    | ok rest => simp [eq_comm]

theorem replaceAll_append_eq_ok_iff : g.replaceAll inner (ss ++ ts) = .ok out ↔
    ∃ first rest, g.replaceAll inner ss = .ok first ∧ g.replaceAll inner ts = .ok rest ∧
      out = first ++ rest := by
  induction ss generalizing out with
  | nil => simp [replaceAll]
  | cons s ss ih =>
    simp only [List.cons_append, replaceAll_cons_eq_ok_iff, ih]
    constructor
    · rintro ⟨first, _, hfirst, ⟨middle, last, hmiddle, hlast, rfl⟩, rfl⟩
      exact ⟨_, last, ⟨first, middle, hfirst, hmiddle, rfl⟩, hlast, by rw [List.append_assoc]⟩
    · rintro ⟨_, last, ⟨first, middle, hfirst, hmiddle, rfl⟩, hlast, rfl⟩
      exact ⟨first, _, hfirst, ⟨middle, last, hmiddle, hlast, rfl⟩, by rw [List.append_assoc]⟩

end Tagging

namespace Compiler

/-- Wherever the segment stands, the tag stage puts `piece` in place of it and treats the segments
around it as it always does. -/
def Inserts (c : Compiler) (t : Template) (s : Segment) (piece : Text) : Prop :=
  ∀ contents front rear, segments t.own.delimiters contents = .ok (front ++ s :: rear) →
    ∀ out, c.compileTags t contents = .ok out ↔ ∃ before after,
      (c.tagging t).replaceAll ((c.tagging t).complete c.limits.tagDepth) front = .ok before ∧
        (c.tagging t).replaceAll ((c.tagging t).complete c.limits.tagDepth) rear = .ok after ∧
        out = before ++ (piece ++ after)

theorem inserts_of_replace {c : Compiler} {t : Template} {s : Segment} {piece : Text}
    (h : (c.tagging t).replace ((c.tagging t).complete c.limits.tagDepth) s = .ok piece) :
    c.Inserts t s piece := by
  intro contents front rear hss out
  have hrun : c.compileTags t contents = .ok out ↔ (c.tagging t).replaceAll
      ((c.tagging t).complete c.limits.tagDepth) (front ++ s :: rear) = .ok out :=
    Tagging.run_eq_ok_iff hss
  rw [hrun, Tagging.replaceAll_append_eq_ok_iff]
  simp only [Tagging.replaceAll_cons_eq_ok_iff, h]
  constructor
  · rintro ⟨before, _, hbefore, ⟨_, after, hpiece, hafter, rfl⟩, rfl⟩
    cases hpiece
    exact ⟨before, after, hbefore, hafter, rfl⟩
  · rintro ⟨before, after, hbefore, hafter, rfl⟩
    exact ⟨before, _, hbefore, ⟨piece, after, rfl, hafter, rfl⟩, rfl⟩

/-- A text in which no directive opens comes out of the tag stage as it is once a backslash stands
in front of each opening of a tag, whatever the openings are as long as they have no backslash in
them. As the value of a tag it is what an unsanitized tag of that name inserts. -/
theorem compileTags_literal (c : Compiler) (t : Template) (text : Text)
    (hds : t.own.delimiters.Unslashed) (htext : t.own.delimiters.OpensNoDirective text) :
    c.compileTags t (t.own.delimiters.literal text) = .ok text ∧
      ∀ name, 1 ≤ c.limits.tagDepth → t.tag? name = some (t.own.delimiters.literal text) →
        ∀ opening body closing, body.trim = name →
          c.Inserts t (.tag .unsanitized opening body closing) text := by
  obtain ⟨ss, hss, hspells⟩ := DelimiterSet.exists_spells_literal hds htext
  refine ⟨(Tagging.run_eq_ok_iff hss).mpr (Tagging.replaceAll_of_spells hspells), ?_⟩
  rintro name hlimit hname opening body closing rfl
  obtain ⟨budget, hbudget⟩ := Nat.exists_eq_add_of_le' hlimit
  have hvalue : (c.tagging t).valueOf body.trim = .ok (t.own.delimiters.literal text) :=
    Tagging.valueOf_of_tag? hname
  apply inserts_of_replace
  rw [Tagging.replace_tag, hbudget, Tagging.resolve_of_segments hvalue hss, Tagging.complete,
    Tagging.replaceAll_of_spells hspells]
  rfl

/-- One brace opens a sanitized tag and two open an unsanitized one, which closes as it opens. -/
def braced : Template where
  own := {
    tags := .ofList [("x".toList, "\\\\\x7b\x7b\\\x7b a \x7d\\\x7b".toList)]
    delimiters := {
      sanitized := some ⟨"\x7b".toList, "\x7d".toList⟩
      unsanitized := some ⟨"\x7b\x7b".toList, "\x7b\x7b".toList⟩ } }

/-- The first backslash is text. Of three braces behind it two count as one opening, and so three
more backslashes are written. -/
theorem compileTags_literal_braced :
    let c : Compiler := { Compiler.usual with limits := ⟨1, 0⟩ }
    let text := "\\\x7b\x7b\x7b a \x7d\x7b".toList
    let written := "\\\\\x7b\x7b\\\x7b a \x7d\\\x7b".toList
    let contents := "<\x7b\x7bx\x7b\x7b>".toList
    braced.own.delimiters.Unslashed ∧ braced.own.delimiters.OpensNoDirective text ∧
      braced.own.delimiters.literal text = written ∧ 1 ≤ c.limits.tagDepth ∧
      braced.tag? "x".toList = some written ∧ c.compileTags braced written = .ok text ∧
      c.compileTags braced contents = .ok ("<".toList ++ (text ++ ">".toList)) := by
  intro c text written contents
  let tag : Segment := .tag .unsanitized "\x7b\x7b".toList "x".toList "\x7b\x7b".toList
  have hds : braced.own.delimiters.Unslashed := by
    intro kind d hd
    rcases kind with _ | _ | _ <;> (cases hd; decide)
  have htext : braced.own.delimiters.OpensNoDirective text := by
    rintro d ⟨⟩ -
    decide
  have hwritten : braced.own.delimiters.literal text = written := by decide +kernel
  have hname : braced.tag? "x".toList = some written := by decide +kernel
  obtain ⟨hcontents, hvalue⟩ := compileTags_literal c braced text hds htext
  rw [hwritten] at hcontents hvalue
  have hinserts : c.Inserts braced tag text :=
    hvalue "x".toList (by decide) hname _ _ _ (by decide)
  have hss : segments braced.own.delimiters contents =
      .ok ([.text "<".toList] ++ tag :: [.text ">".toList]) := by
    decide +kernel
  have hout := (hinserts _ _ _ hss _).mpr ⟨"<".toList, ">".toList, rfl, rfl, rfl⟩
  exact ⟨hds, htext, hwritten, by decide, hname, hcontents, hout⟩

end Compiler

end Stencil
