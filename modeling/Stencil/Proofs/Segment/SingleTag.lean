/- Texts that are one tag, and what two forms of a tag make of the same body. -/
import Stencil.Proofs.Segment.Boundaries
import Stencil.Proofs.Segment.Regions

namespace Stencil

namespace Text

/-- The characters of a text that are not white space. -/
def inked (t : Text) : Text := t.filter fun c => ¬ Unicode.isBlank c

theorem inked_append (s t : Text) : inked (s ++ t) = s.inked ++ t.inked := List.filter_append ..

theorem inked_cons_of_blank {c : Char} (hc : Unicode.isBlank c = true) (t : Text) :
    inked (c :: t) = t.inked :=
  List.filter_cons_of_neg (by simp [hc])

theorem inked_cons_of_not_blank {c : Char} (hc : Unicode.isBlank c = false) (t : Text) :
    inked (c :: t) = c :: t.inked :=
  List.filter_cons_of_pos (by simp [hc])

theorem inked_trimStart (t : Text) : t.trimStart.inked = t.inked := by
  induction t with
  | nil => rfl
  | cons c cs ih =>
    rw [trimStart, List.dropWhile_cons]
    by_cases hc : Unicode.isBlank c = true
    · rw [if_pos hc, inked_cons_of_blank hc]
      exact ih
    · rw [if_neg hc]

theorem inked_trimEnd (t : Text) : t.trimEnd.inked = t.inked := by
  have hstart := inked_trimStart t.reverse
  rw [inked, inked, List.filter_reverse] at hstart
  rw [trimEnd, inked, List.filter_reverse]
  exact List.reverse_eq_iff.mpr hstart

theorem inked_trim (t : Text) : t.trim.inked = t.inked := by
  rw [trim, inked_trimEnd, inked_trimStart]

/-- What can be trimmed away behind a text begins with white space. -/
theorem eq_nil_of_trim_append {t : Text} {c : Char} {v : Text} (hc : Unicode.isBlank c = false)
    (h : trim (t ++ v) = t.trim) (hv : ∀ d ∈ v.head?, d = c) : v = [] := by
  have hinked := congrArg inked h
  rw [inked_trim, inked_trim, inked_append, List.append_right_eq_self] at hinked
  cases v with
  | nil => rfl
  | cons d v =>
    rw [hv d rfl, inked_cons_of_not_blank hc] at hinked
    cases hinked

/-- Where a closing is found in a text with a closing at the end: there, or further ahead. -/
theorem exists_rest_of_closing {c : Char} {cs e b u : Text}
    (h : e ++ c :: cs = b ++ (c :: cs ++ u)) :
    ∃ w, e = b ++ w ∧ (w = [] → u = []) ∧ ∀ d ∈ w.head?, d = c := by
  rcases List.append_eq_append_iff.mp h with ⟨v, rfl, hv⟩ | ⟨w, rfl, hw⟩
  · have hlength := congrArg List.length hv
    simp only [List.length_append, List.length_cons] at hlength
    have hnone : v.length = 0 ∧ u.length = 0 := by omega
    obtain rfl : v = [] := List.length_eq_zero_iff.mp hnone.1
    obtain rfl : u = [] := List.length_eq_zero_iff.mp hnone.2
    exact ⟨[], by simp, fun _ => rfl, nofun⟩
  · refine ⟨w, rfl, ?_, ?_⟩
    · rintro rfl
      simpa using hw
    · intro d hd
      cases w with
      | nil => cases hd
      | cons d' w =>
        cases hd
        exact (List.cons.inj hw).1.symm

/-- Closings that begin differently end the same text with the same body, if it is the same but for
white space: the whole text. -/
theorem eq_of_closings {c d : Char} {cs ds e b b' u u' : Text} (hc : Unicode.isBlank c = false)
    (hd : Unicode.isBlank d = false) (hcd : c ≠ d) (h : e ++ c :: cs = b ++ (c :: cs ++ u))
    (h' : e ++ d :: ds = b' ++ (d :: ds ++ u')) (htrim : b.trim = b'.trim) :
    (b = e ∧ u = []) ∧ b' = e ∧ u' = [] := by
  obtain ⟨w, hw, hu, hstart⟩ := exists_rest_of_closing h
  obtain ⟨w', hw', hu', hstart'⟩ := exists_rest_of_closing h'
  have hbodies : b = b' := by
    rcases List.append_eq_append_iff.mp (hw.symm.trans hw') with ⟨v, rfl, hv⟩ | ⟨v, rfl, hv⟩
    · have hnil : v = [] := by
        refine eq_nil_of_trim_append hc htrim.symm fun x hx => hstart x ?_
        rw [hv, List.head?_append, hx]
        rfl
      rw [hnil, List.append_nil]
    · have hnil : v = [] := by
        refine eq_nil_of_trim_append hd htrim fun x hx => hstart' x ?_
        rw [hv, List.head?_append, hx]
        rfl
      rw [hnil, List.append_nil]
  subst hbodies
  obtain rfl : w = w' := List.append_cancel_left (hw.symm.trans hw')
  have hnil : w = [] := by
    cases w with
    | nil => rfl
    | cons x w => exact absurd ((hstart x rfl).symm.trans (hstart' x rfl)) hcd
  rw [hnil, List.append_nil] at hw
  exact ⟨⟨hw.symm, hu hnil⟩, hw.symm, hu' hnil⟩

end Text

/-- The first tokens are those of a tag, so the first segment is one. -/
theorem exists_tag_of_tokensFrom {s : Segment} {rest : List Segment} {line offset : Nat}
    {kind : TagKind} {opening expression closing : Token} (hs : ∀ u, s ≠ .text u)
    (h : tokensFrom line offset (s :: rest) = [opening, expression, closing])
    (hkind : opening.kind = .opening (.tag kind)) :
    ∃ start body stop, s = .tag kind start body stop ∧ expression.value = body.trim := by
  rw [tokensFrom] at h
  cases s with
  | text u => exact absurd rfl (hs u)
  | escapedOpening start =>
    obtain ⟨rfl, -⟩ := List.cons.inj h
    cases hkind
  | directive start lead name argument stop =>
    obtain ⟨rfl, -⟩ := List.cons.inj h
    cases hkind
  | tag other start body stop =>
    obtain ⟨rfl, htail⟩ := List.cons.inj h
    obtain ⟨rfl, -⟩ := List.cons.inj htail
    cases hkind
    exact ⟨start, body, stop, rfl, rfl⟩

namespace DelimiterSet

variable {ds : DelimiterSet} {t : Text}

/-- Cutting the text gives the tokens of one tag with that body, and no others. -/
def CutsOneTag (ds : DelimiterSet) (kind : TagKind) (body t : Text) : Prop :=
  ∃ opening expression closing : Token, tokenize ds t = .ok [opening, expression, closing] ∧
    opening.kind = .opening (.tag kind) ∧ expression.kind = .expression ∧
    expression.value = body ∧ closing.kind = .closing (.tag kind)

/-- Where an opening stands first, the first segment is no text. -/
theorem exists_head_of_offers {o : Opener} {ss : List Segment} (hds : ds.Closes)
    (ho : ds.Offers o t) (h : segments ds t = .ok ss) :
    ∃ s rest, ss = s :: rest ∧ ∀ u, s ≠ .text u := by
  have hsource := source_segments h
  cases ss with
  | nil =>
    have hstarts := ho.starts
    rw [← hsource] at hstarts
    exact absurd (List.prefix_nil.mp hstarts) ho.nonempty
  | cons s rest =>
    refine ⟨s, rest, rfl, ?_⟩
    rintro u rfl
    have hne : u ≠ [] := raw_ne_nil_of_segmentsFrom h _ List.mem_cons_self
    have hplain := (allFit_of_segmentsFrom hds h).1 [] u rfl hne
    rw [List.append_nil] at hplain
    rw [← hsource] at ho
    exact hplain.1 o ho

/-- The tag begins with the text. Its delimiters are those that are set, and behind it stands
whatever is left. -/
theorem CutsOneTag.exists_segments {kind : TagKind} {d : Delimiters} {body inner : Text}
    (h : ds.CutsOneTag kind body (d.opening ++ inner)) (hds : ds.Closes)
    (hset : ds.get? (.tag kind) = some d) (hne : d.opening ≠ []) :
    ∃ b rest, segments ds (d.opening ++ inner) = .ok (.tag kind d.opening b d.closing :: rest) ∧
      b.trim = body ∧ inner = b ++ (d.closing ++ source rest) := by
  obtain ⟨opening, expression, closing, htokens, hkind, -, rfl, -⟩ := h
  obtain ⟨ss, hss, htokens⟩ := Outcome.map_eq_ok_iff.mp htokens
  have hoffers : ds.Offers ⟨.tag kind, d.opening, d.closing⟩ (d.opening ++ inner) :=
    ⟨hset, hne, List.prefix_append _ _⟩
  obtain ⟨s, rest, rfl, hs⟩ := exists_head_of_offers hds hoffers hss
  obtain ⟨start, b, stop, rfl, hbody⟩ := exists_tag_of_tokensFrom hs htokens hkind
  have hregion := (allFit_of_segmentsFrom hds hss).1
  cases hset.symm.trans hregion.opens.1.isSet
  refine ⟨b, rest, hss, hbody.symm, ?_⟩
  have hsource := source_segments hss
  rw [source_cons, Segment.raw, List.append_assoc, List.append_assoc] at hsource
  exact (List.append_cancel_left hsource).symm

end DelimiterSet

end Stencil
