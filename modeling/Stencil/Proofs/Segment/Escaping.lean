/- Escaping changes what is in the segments of a text, but not where it is cut, unless a quote or
the opening of a directive is escaped. -/
import Stencil.Proofs.Escape.Entities
import Stencil.Proofs.Segment.Concatenation

namespace Stencil

/-- The segment with its text escaped, but not its delimiters. -/
def Segment.escaped : Segment → Segment
  | .text t => .text (Escaper.html t)
  | .tag kind opening body closing => .tag kind opening (Escaper.html body) closing
  | s => s

theorem Segment.isTagLike_escaped (s : Segment) : s.escaped.isTagLike = s.isTagLike := by
  cases s <;> rfl

namespace Entity

/-- The character stands in no usual delimiter, is no quote and ends no line. -/
def IsInert (c : Char) : Prop := c ∉ "\x7b\x7d!\\<%\"'\n".toList

instance (c : Char) : Decidable (IsInert c) :=
  inferInstanceAs (Decidable (c ∉ _))

theorem isInert_of_mem_all {e : Text} (he : e ∈ all) : ∀ c ∈ e, IsInert c := by
  have hall : all.all (fun e => e.all fun c => decide (IsInert c)) = true := by decide
  intro c hc
  exact of_decide_eq_true (List.all_eq_true.mp (List.all_eq_true.mp hall e he) c hc)

theorem htmlChar_of_isPlain {c : Char} (hc : IsPlain c) : htmlChar c = [c] := by
  unfold htmlChar
  split
  next => exact absurd rfl hc.2
  next => exact absurd (by decide) hc.1
  next => exact absurd (by decide) hc.1
  next => exact absurd (by decide) hc.1
  next => exact absurd (by decide) hc.1
  next => rfl

theorem htmlChar_mem_all {c : Char} (hc : ¬ IsPlain c) : htmlChar c ∈ all :=
  ((htmlChar_cases c).resolve_left fun h => hc h.1).1

theorem htmlChar_ne_nil (c : Char) : htmlChar c ≠ [] := by
  rcases htmlChar_cases c with ⟨-, hself⟩ | ⟨hentity, -⟩
  · rw [hself]
    exact List.cons_ne_nil c []
  · obtain ⟨name, hname, -⟩ := exists_name_of_mem_all hentity
    rw [hname]
    exact List.cons_ne_nil _ _

theorem not_mem_htmlChar {c d : Char} (hd : d ∈ markup) : d ∉ htmlChar c := by
  rw [← List.append_nil (htmlChar c)]
  exact (Escaper.harmless_html [c]).markup d hd

theorem not_isQuote_of_mem_htmlChar {c d : Char} (hd : d ∈ htmlChar c) : ¬ IsQuote d := by
  rintro (rfl | rfl) <;> exact not_mem_htmlChar (by decide) hd

theorem newlines_htmlChar (c : Char) : Text.newlines (htmlChar c) = Text.newlines [c] := by
  by_cases hc : IsPlain c
  · rw [htmlChar_of_isPlain hc]
  · have hnone : c ≠ '\n' := by
      rintro rfl
      exact hc (by decide)
    have hentity : '\n' ∉ htmlChar c := fun hmem =>
      isInert_of_mem_all (htmlChar_mem_all hc) '\n' hmem (by decide)
    rw [Text.newlines, Text.newlines, List.count_eq_zero_of_not_mem hentity,
      List.count_eq_zero_of_not_mem (by simpa using hnone.symm)]

end Entity

open Entity

namespace Escaper

theorem html_append (t u : Text) : html (t ++ u) = html t ++ html u := List.flatMap_append

theorem html_of_isPlain {t : Text} (ht : ∀ c ∈ t, IsPlain c) : html t = t := by
  induction t with
  | nil => rfl
  | cons c t ih =>
    obtain ⟨hc, ht⟩ := List.forall_mem_cons.mp ht
    rw [html_cons, htmlChar_of_isPlain hc, ih ht, List.singleton_append]

theorem newlines_html (t : Text) : Text.newlines (html t) = Text.newlines t := by
  induction t with
  | nil => rfl
  | cons c t ih =>
    rw [html_cons, Text.newlines_append, newlines_htmlChar, ih, Text.newlines_cons c t]

theorem html_ne_nil {t : Text} (ht : t ≠ []) : html t ≠ [] := by
  obtain ⟨c, cs, rfl⟩ := List.exists_cons_of_ne_nil ht
  exact List.append_ne_nil_of_left_ne_nil (htmlChar_ne_nil c) _

/-- What has no entities stands in front of the escaped text if it stands in front of the text. -/
theorem prefix_html_iff {w t : Text} (hw : ∀ c ∈ w, IsPlain c) : w <+: html t ↔ w <+: t := by
  induction w generalizing t with
  | nil => exact ⟨fun _ => List.nil_prefix, fun _ => List.nil_prefix⟩
  | cons d w ih =>
    obtain ⟨hd, hw⟩ := List.forall_mem_cons.mp hw
    cases t with
    | nil => exact Iff.rfl
    | cons c t =>
      rw [html_cons]
      by_cases hc : IsPlain c
      · rw [htmlChar_of_isPlain hc, List.singleton_append, List.cons_prefix_cons,
          List.cons_prefix_cons, ih hw]
      · obtain ⟨name, hname, -⟩ := exists_name_of_mem_all (htmlChar_mem_all hc)
        rw [hname, List.cons_append, List.cons_prefix_cons, List.cons_prefix_cons]
        refine ⟨fun h => absurd h.1 hd.2, ?_⟩
        rintro ⟨rfl, -⟩
        exact absurd hd hc

/-- Nothing that is no part of an entity begins in one. -/
theorem prefix_of_prefix_htmlChar {c d : Char} {ds t u w : Text} (hd : ¬ IsInert d)
    (hplain : ∀ e ∈ d :: ds, IsPlain e) (hsplit : htmlChar c = u ++ w) (hw : w ≠ [])
    (h : d :: ds <+: w ++ html t) : d :: ds <+: c :: t := by
  by_cases hc : IsPlain c
  · rw [htmlChar_of_isPlain hc] at hsplit
    rcases List.append_eq_singleton_iff.mp hsplit.symm with ⟨-, rfl⟩ | ⟨-, rfl⟩
    · rw [← htmlChar_of_isPlain hc, ← html_cons] at h
      exact (prefix_html_iff hplain).mp h
    · exact absurd rfl hw
  · obtain ⟨e, w, rfl⟩ := List.exists_cons_of_ne_nil hw
    have he : e ∈ htmlChar c := hsplit ▸ List.mem_append_right u List.mem_cons_self
    rw [List.cons_append, List.cons_prefix_cons] at h
    exact absurd (h.1 ▸ isInert_of_mem_all (htmlChar_mem_all hc) e he) hd

end Escaper

/-- A text in which nothing closes and no string opens goes to the body of the region. -/
theorem bodyBefore_plain_append {closing u rest : Text} (hquotes : ∀ c ∈ u, ¬ IsQuote c)
    (hcloses : ∀ v w, u = v ++ w → w ≠ [] → ¬ closing <+: w ++ rest) (line : Nat) :
    bodyBefore closing .code line (u ++ rest) =
      (bodyBefore closing .code (line + u.newlines) rest).map (u ++ ·) := by
  induction u generalizing line with
  | nil =>
    rw [List.nil_append, Text.newlines_nil, Nat.add_zero]
    cases bodyBefore closing .code line rest <;> rfl
  | cons c u ih =>
    obtain ⟨hc, hquotes⟩ := List.forall_mem_cons.mp hquotes
    have hopen : ¬ (BodyState.code = .code ∧ closing.isPrefixOf (c :: (u ++ rest)) = true) :=
      fun h => hcloses [] (c :: u) rfl (List.cons_ne_nil c u) (List.isPrefixOf_iff_prefix.mp h.2)
    have hrest : ∀ v w, u = v ++ w → w ≠ [] → ¬ closing <+: w ++ rest := fun v w h =>
      hcloses (c :: v) w (congrArg (c :: ·) h)
    rw [List.cons_append, bodyBefore, if_neg hopen, BodyState.next, if_neg hc,
      ih hquotes hrest, Outcome.map_map, Text.lineAfter_eq, Text.newlines_cons c u, Nat.add_assoc]
    rfl

theorem bodyBefore_of_closes {closing t : Text} (hne : t ≠ []) (h : closing <+: t) (line : Nat) :
    bodyBefore closing .code line t = .ok [] := by
  obtain ⟨c, cs, rfl⟩ := List.exists_cons_of_ne_nil hne
  rw [bodyBefore, if_pos ⟨rfl, List.isPrefixOf_iff_prefix.mpr h⟩]

/-- The body of a region is escaped where it stands. -/
theorem bodyBefore_html {d : Char} {ds t : Text} (hd : ¬ IsInert d)
    (hclosing : ∀ c ∈ d :: ds, IsPlain c) (hquotes : ∀ c ∈ t, ¬ IsQuote c) (line : Nat) :
    bodyBefore (d :: ds) .code line (Escaper.html t) =
      (bodyBefore (d :: ds) .code line t).map Escaper.html := by
  induction t generalizing line with
  | nil => rfl
  | cons c t ih =>
    obtain ⟨hc, hquotes⟩ := List.forall_mem_cons.mp hquotes
    by_cases hcloses : d :: ds <+: c :: t
    · have hescaped := (Escaper.prefix_html_iff hclosing).mpr hcloses
      have hne := List.cons_ne_nil c t
      rw [bodyBefore_of_closes (Escaper.html_ne_nil hne) hescaped,
        bodyBefore_of_closes hne hcloses]
      rfl
    · have hinside : ∀ u w, htmlChar c = u ++ w → w ≠ [] → ¬ d :: ds <+: w ++ Escaper.html t :=
        fun u w hsplit hw h =>
          hcloses (Escaper.prefix_of_prefix_htmlChar hd hclosing hsplit hw h)
      rw [Escaper.html_cons, bodyBefore_plain_append (fun _ => not_isQuote_of_mem_htmlChar)
          hinside, newlines_htmlChar, ih hquotes,
        bodyBefore, if_neg (fun h => hcloses (List.isPrefixOf_iff_prefix.mp h.2)), BodyState.next,
        if_neg hc, Text.lineAfter_eq, Outcome.map_map, Outcome.map_map]
      rfl

namespace DelimiterSet

section Prepended

variable {ds : DelimiterSet} {t rest : Text}

theorem segmentsFrom_of_fits (ht : t ≠ []) (hfits : ds.Fits rest (.text t)) (line : Nat) :
    segmentsFrom ds.openers 0 line (t ++ rest) =
      (segmentsFrom ds.openers 0 (line + t.newlines) rest).map (prependText t) := by
  induction t generalizing line with
  | nil => exact absurd rfl ht
  | cons c t ih =>
    have hplain : ds.IsPlain (c :: (t ++ rest)) := hfits [] (c :: t) rfl ht
    rw [List.cons_append, segmentsFrom_of_isPlain hplain, Text.lineAfter_eq,
      Text.newlines_cons c t, ← Nat.add_assoc]
    by_cases hnil : t = []
    · subst hnil
      rfl
    · have htail : ds.Fits rest (.text t) := fun u v h => hfits (c :: u) v (congrArg (c :: ·) h)
      rw [ih hnil htail, Outcome.map_map]
      simp only [consText_prependText]

theorem segmentsFrom_of_error {line : Nat} {e : LexError} (ht : t ≠ [])
    (h : segmentAt? ds.openers line t = .error e) :
    segmentsFrom ds.openers 0 line t = .error e := by
  obtain ⟨c, cs, rfl⟩ := List.exists_cons_of_ne_nil ht
  rw [segmentsFrom, h]

end Prepended

section Usual

variable {t : Text} {line : Nat}

/-- What may begin in a text with the usual delimiters is a directive, or no part of an escaped
character. -/
theorem begins_usual {w : Text} (hw : ({} : DelimiterSet).Begins w) :
    w = "<%".toList ∨ ∃ d ds, w = d :: ds ∧ ¬ IsInert d ∧ ∀ c ∈ w, Entity.IsPlain c := by
  obtain ⟨⟨kind, opening, closing⟩, ⟨hset, -, -⟩, hw⟩ := hw
  rcases kind with _ | _ | _ <;> cases hset <;> rcases hw with rfl | ⟨hkind, rfl⟩
  · exact .inl rfl
  · cases hkind
  all_goals exact .inr ⟨_, _, rfl, by decide, isPlain_of_all rfl⟩

theorem mem_openers_usual {o : Opener} (ho : o ∈ ({} : DelimiterSet).openers) :
    o = ⟨.directive, "<%".toList, "%>".toList⟩ ∨ o.isTag = true ∧ ∃ kind d ds,
      o.kind = .tag kind ∧ (∀ c ∈ o.opening, Entity.IsPlain c) ∧
        o.closing = d :: ds ∧ ¬ IsInert d ∧ ∀ c ∈ o.closing, Entity.IsPlain c := by
  have hopeners : ({} : DelimiterSet).openers =
      [⟨.tag .unsanitized, "\x7b\x7b!".toList, "!\x7d\x7d".toList⟩,
        ⟨.directive, "<%".toList, "%>".toList⟩,
        ⟨.tag .sanitized, "\x7b\x7b".toList, "\x7d\x7d".toList⟩] := rfl
  rw [hopeners] at ho
  simp only [List.mem_cons, List.not_mem_nil, or_false] at ho
  rcases ho with rfl | rfl | rfl
  · exact .inr ⟨rfl, _, _, _, rfl, isPlain_of_all rfl, rfl, by decide, isPlain_of_all rfl⟩
  · exact .inl rfl
  · exact .inr ⟨rfl, _, _, _, rfl, isPlain_of_all rfl, rfl, by decide, isPlain_of_all rfl⟩

theorem not_prefix_html (t : Text) : ¬ "<%".toList <+: Escaper.html t := fun h =>
  (Escaper.harmless_html t).markup '<' (by decide) (h.subset List.mem_cons_self)

/-- An escaped character is plain wherever the character is. -/
theorem fits_htmlChar {c : Char} (h : ({} : DelimiterSet).IsPlain (c :: t)) :
    ({} : DelimiterSet).Fits (Escaper.html t) (.text (htmlChar c)) := by
  intro u v hsplit hv
  refine isPlain_iff_begins.mpr fun w hw hstarts => ?_
  rcases begins_usual hw with rfl | ⟨d, ds, rfl, hd, hplain⟩
  · obtain ⟨e, v, rfl⟩ := List.exists_cons_of_ne_nil hv
    have he : '<' = e := (List.cons_prefix_cons.mp hstarts).1
    have hmem : e ∈ htmlChar c := hsplit ▸ List.mem_append_right u List.mem_cons_self
    exact not_mem_htmlChar (by decide) (he ▸ hmem)
  · exact isPlain_iff_begins.mp h _ hw
      (Escaper.prefix_of_prefix_htmlChar hd hplain hsplit hv hstarts)

theorem matchOpener?_html {os : List Opener} (hos : ∀ o ∈ os, o ∈ ({} : DelimiterSet).openers)
    (hdirective : ∀ o ∈ os, o.isTag = false → ¬ "<%".toList <+: t) :
    matchOpener? os (Escaper.html t) = matchOpener? os t := by
  refine List.find?_congr fun o ho => ?_
  rw [Bool.eq_iff_iff, List.isPrefixOf_iff_prefix, List.isPrefixOf_iff_prefix]
  rcases mem_openers_usual (hos o ho) with rfl | ⟨-, _, _, _, -, hopening, -⟩
  · exact iff_of_false (not_prefix_html t) (hdirective _ ho rfl)
  · exact Escaper.prefix_html_iff hopening

theorem escapedOpening?_html (t : Text) :
    escapedOpening? ({} : DelimiterSet).openers (Escaper.html t) =
      escapedOpening? ({} : DelimiterSet).openers t := by
  cases t with
  | nil => rfl
  | cons c t =>
    by_cases hc : c = '\\'
    · subst hc
      exact matchOpener?_html (fun o ho => (List.mem_filter.mp ho).1)
        fun o ho htag => by simp [htag] at ho
    · obtain ⟨d, u, hchar, hd⟩ : ∃ d u, htmlChar c = d :: u ∧ d ≠ '\\' := by
        by_cases hplain : Entity.IsPlain c
        · exact ⟨c, [], htmlChar_of_isPlain hplain, hc⟩
        · obtain ⟨name, hname, -⟩ := exists_name_of_mem_all (htmlChar_mem_all hplain)
          exact ⟨'&', name, hname, by decide⟩
      rw [Escaper.html_cons, hchar, List.cons_append, escapedOpening?.eq_def,
        escapedOpening?.eq_def]
      simp [hc, hd]

theorem regionAfter_html {o : Opener} (ho : o ∈ ({} : DelimiterSet).openers)
    (htag : o.isTag = true) (hquotes : ∀ c ∈ t, ¬ IsQuote c) :
    regionAfter o line (Escaper.html t) = (regionAfter o line t).map Segment.escaped := by
  rcases mem_openers_usual ho with rfl | ⟨-, kind, d, ds, hkind, -, hclosing, hd, hplain⟩
  · cases htag
  · rw [hclosing] at hplain
    rw [regionAfter, regionAfter, hclosing, bodyBefore_html hd hplain hquotes]
    cases bodyBefore (d :: ds) .code (line + o.opening.newlines) t with
    | error u => rfl
    | ok body => simp [Except.map, regionSegment, hkind, Segment.escaped]

/-- Where no directive opens, what stands at the start of the text is escaped. -/
theorem segmentAt?_html (hquotes : ∀ c ∈ t, ¬ IsQuote c) (hdirective : ¬ "<%".toList <+: t)
    (line : Nat) : segmentAt? ({} : DelimiterSet).openers line (Escaper.html t) =
      (segmentAt? ({} : DelimiterSet).openers line t).map (Option.map Segment.escaped) := by
  unfold segmentAt?
  rw [escapedOpening?_html, matchOpener?_html (fun _ => id) fun _ _ _ => hdirective]
  split
  next => rfl
  next =>
    split
    next o ho =>
      rcases mem_openers_usual (List.mem_of_find?_eq_some ho) with
        rfl | ⟨htag, _, _, _, -, hopening, -⟩
      · exact absurd (isPrefixOf_of_matchOpener? ho) hdirective
      · obtain ⟨rest, rfl⟩ := isPrefixOf_of_matchOpener? ho
        have hrest : ∀ c ∈ rest, ¬ IsQuote c := fun c hc =>
          hquotes c (List.mem_append_right o.opening hc)
        rw [Escaper.html_append, Escaper.html_of_isPlain hopening, List.drop_left, List.drop_left,
          regionAfter_html (List.mem_of_find?_eq_some ho) htag hrest, Outcome.map_map,
          Outcome.map_map]
        rfl
    next => rfl

theorem raw_escaped_of_segmentAt? {s : Segment} (hdirective : ¬ "<%".toList <+: t)
    (h : segmentAt? ({} : DelimiterSet).openers line t = .ok (some s)) :
    s.escaped.raw = Escaper.html s.raw := by
  unfold segmentAt? at h
  split at h
  next o ho =>
    cases h
    obtain ⟨rest, -, ho⟩ := escapes_iff.mp ho
    rcases mem_openers_usual (mem_openers.mpr ⟨ho.isSet, ho.nonempty⟩) with
      rfl | ⟨-, _, _, _, -, hopening, -⟩
    · cases ho.among
    · show '\\' :: o.opening = Escaper.html ('\\' :: o.opening)
      rw [Escaper.html_cons, Escaper.html_of_isPlain hopening]
      rfl
  next =>
    split at h
    next o ho =>
      rcases mem_openers_usual (List.mem_of_find?_eq_some ho) with
        rfl | ⟨-, kind, _, _, hkind, hopening, -, -, hclosing⟩
      · exact absurd (isPrefixOf_of_matchOpener? ho) hdirective
      · obtain ⟨r, hr, hs⟩ := Outcome.map_eq_ok_iff.mp h
        cases hs
        unfold regionAfter at hr
        split at hr
        next => cases hr
        next body _ =>
          rw [regionSegment, hkind] at hr
          cases hr
          simp only [Segment.escaped, Segment.raw, Escaper.html_append,
            Escaper.html_of_isPlain hopening, Escaper.html_of_isPlain hclosing]
    next => cases h

theorem map_consText (c : Char) (ss : List Segment) :
    (consText c ss).map Segment.escaped = prependText (htmlChar c) (ss.map Segment.escaped) := by
  cases ss with
  | nil => simp [consText, prependText, Segment.escaped, Escaper.html]
  | cons s ss => cases s <;> simp [consText, prependText, Segment.escaped, Escaper.html]

/-- Cutting the escaped text, which starts on this line, gives the segments of the text, escaped. -/
def CutsEscaped (line : Nat) (t : Text) : Prop :=
  segmentsFrom ({} : DelimiterSet).openers 0 line (Escaper.html t) =
    (segmentsFrom ({} : DelimiterSet).openers 0 line t).map (List.map Segment.escaped)

theorem CutsEscaped.cons {c : Char} (hplain : ({} : DelimiterSet).IsPlain (c :: t))
    (ht : CutsEscaped (Text.lineAfter line c) t) : CutsEscaped line (c :: t) := by
  rw [CutsEscaped, Escaper.html_cons,
    segmentsFrom_of_fits (htmlChar_ne_nil c) (fits_htmlChar hplain),
    segmentsFrom_of_isPlain hplain, newlines_htmlChar, ← Text.lineAfter_eq, ht, Outcome.map_map,
    Outcome.map_map]
  simp only [map_consText]

theorem CutsEscaped.append {s : Segment} (hquotes : ∀ c ∈ s.raw ++ t, ¬ IsQuote c)
    (hdirective : ¬ "<%".toList <+: s.raw ++ t)
    (hs : segmentAt? ({} : DelimiterSet).openers line (s.raw ++ t) = .ok (some s))
    (ht : CutsEscaped (line + s.raw.newlines) t) : CutsEscaped line (s.raw ++ t) := by
  have hraw := raw_escaped_of_segmentAt? hdirective hs
  have hescaped := segmentAt?_html hquotes hdirective line
  rw [hs, Escaper.html_append, ← hraw] at hescaped
  have hne := raw_ne_nil_of_segmentAt? (fun _ => opening_ne_nil) hs
  have hescapedNe : s.escaped.raw ≠ [] :=
    raw_ne_nil_of_segmentAt? (fun _ => opening_ne_nil) hescaped
  rw [CutsEscaped, Escaper.html_append, ← hraw,
    segmentsFrom_of_segmentAt? rfl hescapedNe hescaped, segmentsFrom_of_segmentAt? rfl hne hs,
    hraw, Escaper.newlines_html, ht, Outcome.map_map, Outcome.map_map]
  rfl

theorem CutsEscaped.of_error {e : LexError} (hne : t ≠ []) (hquotes : ∀ c ∈ t, ¬ IsQuote c)
    (hdirective : ¬ "<%".toList <+: t)
    (h : segmentAt? ({} : DelimiterSet).openers line t = .error e) : CutsEscaped line t := by
  have hescaped := segmentAt?_html hquotes hdirective line
  rw [h] at hescaped
  rw [CutsEscaped, segmentsFrom_of_error (Escaper.html_ne_nil hne) hescaped,
    segmentsFrom_of_error hne h]
  rfl

/-- Without strings and directives in a text, escaping it and cutting it may change places. -/
theorem cutsEscaped (hquotes : ∀ c ∈ t, ¬ IsQuote c) (hdirective : ¬ "<%".toList <:+: t)
    (line : Nat) : CutsEscaped line t := by
  -- What is left behind a tag is more than one character shorter, so the induction is on length.
  induction hlength : t.length using Nat.strongRecOn generalizing t line with
  | ind n ih =>
    by_cases hne : t = []
    · subst hne
      rfl
    have hstart : ¬ "<%".toList <+: t := fun h => hdirective h.isInfix
    have hbehind : ∀ {front rest : Text}, front ≠ [] → front ++ rest = t → ∀ line,
        CutsEscaped line rest := by
      rintro front rest hfront rfl line
      refine ih rest.length ?_ (fun c hc => hquotes c (List.mem_append_right front hc))
        (fun h => hdirective (h.trans (List.suffix_append front rest).isInfix)) line rfl
      rw [← hlength, List.length_append]
      exact Nat.lt_add_of_pos_left (List.length_pos_iff.mpr hfront)
    cases hfound : segmentAt? ({} : DelimiterSet).openers line t with
    | error e => exact .of_error hne hquotes hstart hfound
    | ok found =>
      cases found with
      | none =>
        obtain ⟨c, cs, rfl⟩ := List.exists_cons_of_ne_nil hne
        exact .cons (isPlain_of_segmentAt? hfound) (hbehind (List.cons_ne_nil c []) rfl _)
      | some s =>
        obtain ⟨rest, rfl⟩ := raw_of_segmentAt? hfound
        have hraw := raw_ne_nil_of_segmentAt? (fun _ => opening_ne_nil) hfound
        exact .append hquotes hstart hfound (hbehind hraw rfl _)

end Usual

end DelimiterSet

end Stencil
