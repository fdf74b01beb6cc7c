/- Texts without tags, which the tag stage leaves alone, and values that it need not complete. -/
import Stencil.Proofs.Compiler.Sanitizing
import Stencil.Proofs.Compiler.SelfReference

namespace Stencil

/-- The tokens that begin what the tag stage replaces. -/
def TokenKind.tagLike : List TokenKind :=
  [.opening (.tag .sanitized), .opening (.tag .unsanitized), .escapedOpening]

theorem Segment.exists_tagLike_iff (s : Segment) (line offset : Nat) :
    (∃ k ∈ s.tokens line offset, k.kind ∈ TokenKind.tagLike) ↔ s.isTagLike = true := by
  cases s with
  | text t => simp [tokens, isTagLike]
  | escapedOpening opening => simp [tokens, isTagLike, TokenKind.tagLike]
  | tag kind opening body closing => cases kind <;> simp [tokens, isTagLike, TokenKind.tagLike]
  | directive opening lead name argument closing =>
    cases he : expression? argument <;> simp [tokens, isTagLike, TokenKind.tagLike, he]

theorem exists_tagLike_iff (ss : List Segment) (line offset : Nat) :
    (∃ k ∈ tokensFrom line offset ss, k.kind ∈ TokenKind.tagLike) ↔
      ∃ s ∈ ss, s.isTagLike = true := by
  induction ss generalizing line offset with
  | nil => simp [tokensFrom]
  | cons s ss ih =>
    simp only [tokensFrom, List.mem_append, or_and_right, exists_or, List.exists_mem_cons_iff,
      s.exists_tagLike_iff, ih]

section Containing

variable {ds : DelimiterSet} {t : Text} {ss : List Segment}

/-- Looking for an opening of a tag before the text is cut hides no tag. -/
theorem containsTag_iff : containsTag ds t = true ↔
    ∃ ks, tokenize ds t = .ok ks ∧ ∃ k ∈ ks, k.kind ∈ TokenKind.tagLike := by
  rw [containsTag, Option.isSome_iff_exists]
  constructor
  · rintro ⟨ss, hss⟩
    obtain ⟨hsegments, htagged⟩ := taggedSegments?_eq_some_iff.mp hss
    refine ⟨tokensFrom 1 0 ss, ?_, (exists_tagLike_iff ss 1 0).mpr htagged⟩
    rw [tokenize, hsegments]
    rfl
  · rintro ⟨ks, hks, htagged⟩
    obtain ⟨ss, hsegments, rfl⟩ := Outcome.map_eq_ok_iff.mp hks
    exact ⟨ss, taggedSegments?_eq_some_iff.mpr
      ⟨hsegments, (exists_tagLike_iff ss 1 0).mp htagged⟩⟩

theorem taggedSegments?_eq_none_iff (hss : segments ds t = .ok ss) :
    taggedSegments? ds t = none ↔ ∀ s ∈ ss, s.isTagLike = false := by
  rw [Option.eq_none_iff_forall_ne_some]
  constructor
  · intro hnone s hs
    exact Bool.eq_false_iff.mpr fun htagged =>
      hnone ss (taggedSegments?_eq_some_iff.mpr ⟨hss, s, hs, htagged⟩)
  · intro huntagged ts hts
    obtain ⟨hts, s, hs, htagged⟩ := taggedSegments?_eq_some_iff.mp hts
    cases hss.symm.trans hts
    exact Bool.eq_false_iff.mp (huntagged s hs) htagged

theorem containsTag_eq_false_iff : containsTag ds t = false ↔ taggedSegments? ds t = none := by
  rw [containsTag, Option.isSome_eq_false_iff, Option.isNone_iff_eq_none]

end Containing

namespace Tagging

variable {g : Tagging} {inner : Text → List Segment → Except Cause Text} {ss ts : List Segment}

theorem replaceAll_of_untagged (h : ∀ s ∈ ss, s.isTagLike = false) :
    g.replaceAll inner ss = .ok (source ss) := by
  induction ss with
  | nil => rfl
  | cons s ss ih =>
    obtain ⟨hs, hss⟩ := List.forall_mem_cons.mp h
    have hfirst : g.replace inner s = .ok s.raw := by
      cases s with
      | text t => rfl
      | directive opening lead name argument closing => rfl
      | escapedOpening opening => cases hs
      | tag kind opening body closing => cases hs
    rw [replaceAll, hfirst, ih hss, source_cons]

/-- The tag stage puts behind each other what replaces the segments. -/
theorem replaceFrom_eq_ok_iff {s : Splice} {position : Nat} {out : Text} :
    g.replaceFrom s position ss = .ok out ↔
      g.replaceAll (g.complete g.limit) ss = .ok out := by
  induction ss generalizing position out with
  | nil =>
    rw [replaceFrom, replaceAll, Except.ok.injEq, Except.ok.injEq]
  | cons segment ss ih =>
    rw [replaceFrom, replaceAll]
    cases g.replace (g.complete g.limit) segment with
    | error cause => simp
    | ok first =>
      dsimp only
      have hrest := @ih (position + segment.raw.length)
      cases hfrom : g.replaceFrom s (position + segment.raw.length) ss with
      | ok rest =>
        rw [hrest.mp hfrom, Except.ok.injEq, Except.ok.injEq]
      | error f =>
        cases hall : g.replaceAll (g.complete g.limit) ss with
        | ok rest => cases hfrom.symm.trans (hrest.mpr hall)
        | error cause => simp

theorem run_eq_ok_iff {t out : Text} (hss : segments g.template.own.delimiters t = .ok ss) :
    g.run (Splice.whole t) = .ok out ↔ g.replaceAll (g.complete g.limit) ss = .ok out := by
  rw [run, Splice.text_whole, hss]
  exact replaceFrom_eq_ok_iff

theorem valueOf_of_tag? {name value : Text} (h : g.template.tag? name = some value) :
    g.valueOf name = .ok value := by
  rw [valueOf, h]

/-- A value that is completed only when it holds tags comes to what completing it comes to, as long
as values may stand inside each other at all. -/
theorem resolve_of_segments {body value : Text} (hvalue : g.valueOf body = .ok value)
    (hss : segments g.template.own.delimiters value = .ok ss) (budget : Nat) :
    g.resolve (g.complete (budget + 1)) body = g.complete (budget + 1) body ss := by
  rw [resolve, hvalue]
  dsimp only
  cases htagged : taggedSegments? g.template.own.delimiters value with
  | some ts =>
    obtain ⟨hts, -⟩ := taggedSegments?_eq_some_iff.mp htagged
    cases hss.symm.trans hts
    rfl
  | none =>
    have huntagged := (taggedSegments?_eq_none_iff hss).mp htagged
    rw [complete, replaceAll_of_untagged huntagged, source_segments hss]

theorem resolve_of_untagged {body value : Text} (hvalue : g.valueOf body = .ok value)
    (huntagged : containsTag g.template.own.delimiters value = false) :
    g.resolve inner body = .ok value := by
  rw [resolve, hvalue]
  dsimp only
  rw [containsTag_eq_false_iff.mp huntagged]

theorem replace_of_untagged {kind : TagKind} {opening body closing value : Text}
    (hvalue : g.valueOf body.trim = .ok value)
    (huntagged : containsTag g.template.own.delimiters value = false) :
    g.replace inner (.tag kind opening body closing) = .ok (g.insert kind value) := by
  rw [replace_tag, resolve_of_untagged hvalue huntagged]
  rfl

end Tagging

namespace Compiler

/-- That a text holds a tag is what cutting it tells, and of a text that can be cut and holds none
the tag stage makes the text itself. So a tag with such a value inserts it as it is, at any depth,
and what it inserts is what completing the value first would have come to. -/
theorem compileTags_untagged (ds : DelimiterSet) (text : Text) :
    (containsTag ds text = true ↔
        ∃ ks, tokenize ds text = .ok ks ∧ ∃ k ∈ ks, k.kind ∈ TokenKind.tagLike) ∧
      ∀ (c : Compiler) (t : Template) (ks : List Token), t.own.delimiters = ds →
        tokenize ds text = .ok ks → containsTag ds text = false →
        c.compileTags t text = .ok text ∧
          ∀ (kind : TagKind) (opening body closing : Text) (budget : Nat) (ss : List Segment),
            (c.tagging t).valueOf body.trim = .ok text → segments ds text = .ok ss →
            (c.tagging t).replace ((c.tagging t).complete budget)
                (.tag kind opening body closing) = .ok ((c.tagging t).insert kind text) ∧
              ((c.tagging t).complete (budget + 1) body.trim ss).map ((c.tagging t).insert kind) =
                .ok ((c.tagging t).insert kind text) := by
  refine ⟨containsTag_iff, ?_⟩
  rintro c t ks rfl hks huntagged
  obtain ⟨ss, hss, -⟩ := Outcome.map_eq_ok_iff.mp hks
  have hplain := (taggedSegments?_eq_none_iff hss).mp (containsTag_eq_false_iff.mp huntagged)
  have hsame : ∀ inner, (c.tagging t).replaceAll inner ss = .ok text := by
    intro inner
    rw [Tagging.replaceAll_of_untagged hplain, source_segments hss]
  refine ⟨(Tagging.run_eq_ok_iff hss).mpr (hsame _), ?_⟩
  intro kind opening body closing budget ss' hvalue hss'
  cases hss.symm.trans hss'
  constructor
  · exact Tagging.replace_of_untagged hvalue huntagged
  · rw [Tagging.complete, hsame]
    rfl

/-- A value with the opening of a tag in it, but in the argument of a directive. -/
def quoting : Template :=
  ⟨{ tags := .ofList [("d".toList, "<% show('\x7b\x7b x \x7d\x7d') %>".toList)] }, []⟩

/-- No value may stand inside another one here, and this one need not. -/
theorem compileTags_untagged_quoting :
    let c : Compiler := { Compiler.usual with limits := ⟨0, 0⟩ }
    let text := "<% show('\x7b\x7b x \x7d\x7d') %>".toList
    let shown := "&lt;% show(&#039;\x7b\x7b x \x7d\x7d&#039;) %&gt;".toList
    includesTagOpening {} text = true ∧ (∃ ks, tokenize {} text = .ok ks) ∧
      containsTag {} text = false ∧ (c.tagging quoting).valueOf "d".toList = .ok text ∧
      c.compileTags quoting text = .ok text ∧
      (c.tagging quoting).replace ((c.tagging quoting).complete 0)
        (.tag .sanitized "\x7b\x7b".toList "d".toList "\x7d\x7d".toList) = .ok shown := by
  intro c text shown
  have huntagged : containsTag {} text = false := by decide +kernel
  have hvalue : (c.tagging quoting).valueOf "d".toList = .ok text := by decide +kernel
  have hks : tokenize {} text = .ok _ := rfl
  have hss : segments {} text = .ok _ := rfl
  obtain ⟨hsame, hinserted⟩ :=
    (compileTags_untagged {} text).2 c quoting _ rfl hks huntagged
  have hshown : (c.tagging quoting).insert .sanitized text = shown := by decide +kernel
  have htag := (hinserted .sanitized "\x7b\x7b".toList "d".toList "\x7d\x7d".toList 0 _
    (by rw [show Text.trim "d".toList = "d".toList by decide]; exact hvalue) hss).1
  rw [hshown] at htag
  exact ⟨by decide +kernel, ⟨_, hks⟩, huntagged, hvalue, hsame, htag⟩

end Compiler

end Stencil
