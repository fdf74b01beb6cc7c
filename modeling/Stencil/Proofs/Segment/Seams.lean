/- Segments put behind each other: when the lexer finds them again. -/
import Stencil.Proofs.Segment.Stretches

namespace Stencil

/-- Puts a text in front of segments. A text that they start with takes it up. -/
def prependText (t : Text) : List Segment → List Segment
  | .text u :: ss => .text (t ++ u) :: ss
  | ss => .text t :: ss

/-- Makes one of texts that stand side by side. -/
def joinTexts : List Segment → List Segment
  | [] => []
  | .text t :: ss => prependText t (joinTexts ss)
  | s :: ss => s :: joinTexts ss

theorem joinTexts_of_ne_text {s : Segment} (hs : ∀ t, s ≠ .text t) (ss : List Segment) :
    joinTexts (s :: ss) = s :: joinTexts ss := by
  cases s with
  | text t => exact absurd rfl (hs t)
  | escapedOpening opening => rfl
  | directive opening lead name argument closing => rfl
  | tag kind opening body closing => rfl

theorem source_prependText (t : Text) (ss : List Segment) :
    source (prependText t ss) = t ++ source ss := by
  unfold prependText
  split <;> simp [Segment.raw]

theorem source_joinTexts (ss : List Segment) : source (joinTexts ss) = source ss := by
  induction ss using joinTexts.induct with
  | case1 => rfl
  | case2 t ss ih =>
    rw [joinTexts, source_prependText, ih]
    rfl
  | case3 s ss hs ih => rw [joinTexts_of_ne_text hs, source_cons, source_cons, ih]

theorem filter_prependText (t : Text) (ss : List Segment) :
    (prependText t ss).filter Segment.isTagLike = ss.filter Segment.isTagLike := by
  unfold prependText
  split <;> simp [Segment.isTagLike]

/-- Tags and escaped openings stay what they are. -/
theorem filter_joinTexts (ss : List Segment) :
    (joinTexts ss).filter Segment.isTagLike = ss.filter Segment.isTagLike := by
  induction ss using joinTexts.induct with
  | case1 => rfl
  | case2 t ss ih =>
    rw [joinTexts, filter_prependText, ih]
    simp [Segment.isTagLike]
  | case3 s ss hs ih =>
    rw [joinTexts_of_ne_text hs, List.filter_cons, List.filter_cons, ih]

namespace DelimiterSet

variable {ds : DelimiterSet} {s : Segment} {ss : List Segment} {t u after rest : Text}

/-- What a segment other than text begins with: an opening, or a backslash and the opening of a
tag. -/
def Begins (ds : DelimiterSet) (w : Text) : Prop :=
  ∃ o, ds.Offers o o.opening ∧ (w = o.opening ∨ o.kind.isTag ∧ w = '\\' :: o.opening)

/-- Something to be cut off begins in the segment and ends in the text behind it. Within a tag or a
directive, and behind the backslash of an escaped opening, nothing else is looked for. -/
def Straddles (ds : DelimiterSet) (rest : Text) : Segment → Prop
  | .text t => ∃ u v w, t = u ++ v ∧ v ≠ [] ∧ ds.Begins w ∧ w <+: v ++ rest ∧ ¬ w <+: v
  | .escapedOpening opening =>
    ∃ o, o.kind.isTag ∧ ds.Offers o (opening ++ rest) ∧ ¬ o.opening <+: opening
  | s => ∃ w, ds.Begins w ∧ w <+: s.raw ++ rest ∧ ¬ w <+: s.raw

/-- No segment runs into the next ones. -/
def Seamless (ds : DelimiterSet) (ss : List Segment) : Prop :=
  ∀ front s rear, ss = front ++ s :: rear → ¬ ds.Straddles (source rear) s

theorem Offers.begins {o : Opener} (h : ds.Offers o t) : ds.Begins o.opening :=
  ⟨o, ⟨h.isSet, h.nonempty, List.prefix_rfl⟩, .inl rfl⟩

theorem Offers.begins_escaped {o : Opener} (h : ds.Offers o t) (hkind : o.kind.isTag) :
    ds.Begins ('\\' :: o.opening) :=
  ⟨o, ⟨h.isSet, h.nonempty, List.prefix_rfl⟩, .inr ⟨hkind, rfl⟩⟩

/-- Plain is a place where nothing begins. -/
theorem isPlain_iff_begins : ds.IsPlain t ↔ ∀ w, ds.Begins w → ¬ w <+: t := by
  constructor
  · rintro h w ⟨o, ho, rfl | ⟨hkind, rfl⟩⟩ hw
    · exact h.1 o ⟨ho.isSet, ho.nonempty, hw⟩
    · obtain ⟨after, rfl⟩ := hw
      exact h.2 o (o.opening ++ after) rfl hkind ⟨ho.isSet, ho.nonempty, List.prefix_append _ _⟩
  · intro h
    refine ⟨fun o ho => h _ ho.begins ho.starts, ?_⟩
    rintro o rest rfl hkind ho
    exact h _ (ho.begins_escaped hkind) (List.cons_prefix_cons.mpr ⟨rfl, ho.starts⟩)

theorem exists_escapes {o : Opener} (hkind : o.kind.isTag) (ho : ds.Offers o t) :
    ∃ p, ds.Escapes p ('\\' :: t) := by
  have hfound : ∃ p, matchOpener? (ds.openersOf RegionKind.isTag) t = some p := by
    rw [← Option.ne_none_iff_exists']
    intro hnone
    exact matchOpener?_eq_none_iff.mp hnone o hkind ho
  obtain ⟨p, hp⟩ := hfound
  exact ⟨p, t, rfl, matchOpener?_eq_some_iff.mp hp⟩

/-- A region opens where no opening is longer and none is escaped. -/
theorem OpensRegion.prefix_of_begins {o : Opener} (h : ds.OpensRegion o t) {w : Text}
    (hw : ds.Begins w) (hwt : w <+: t) : w <+: o.opening := by
  obtain ⟨p, hp, rfl | ⟨hkind, rfl⟩⟩ := hw
  · have hlongest := h.1.longest p ⟨hp.isSet, hp.nonempty, hwt⟩ rfl
    exact List.prefix_of_prefix_length_le hwt h.1.starts (by omega)
  · obtain ⟨after, rfl⟩ := hwt
    obtain ⟨q, hq⟩ := exists_escapes hkind (t := p.opening ++ after)
      ⟨hp.isSet, hp.nonempty, List.prefix_append _ _⟩
    exact absurd hq (h.2 q)

theorem IsRegion.not_straddled {o : Opener} {body : Text} (h : ds.IsRegion o body rest) {w : Text}
    (hw : ds.Begins w) (hwt : w <+: o.opening ++ (body ++ o.closing) ++ rest) :
    w <+: o.opening ++ (body ++ o.closing) := by
  rw [List.append_assoc, List.append_assoc] at hwt
  exact (h.opens.prefix_of_begins hw hwt).trans (List.prefix_append _ _)

/-- A region stays one in front of another text, unless something longer begins with it. -/
theorem IsRegion.of_not_straddled {o : Opener} {body : Text} (h : ds.IsRegion o body after)
    (hrest : ∀ w, ds.Begins w → w <+: o.opening ++ (body ++ o.closing) ++ rest →
      w <+: o.opening ++ (body ++ o.closing)) : ds.IsRegion o body rest := by
  have hwithin : ∀ w, ds.Begins w → w <+: o.opening ++ (body ++ (o.closing ++ rest)) →
      w <+: o.opening ++ (body ++ (o.closing ++ after)) := by
    intro w hw hwt
    rw [← List.append_assoc body, ← List.append_assoc] at hwt ⊢
    exact (hrest w hw hwt).trans (List.prefix_append _ _)
  refine ⟨⟨⟨⟨h.opens.1.isSet, h.opens.1.nonempty, List.prefix_append _ _⟩, rfl, ?_⟩, ?_⟩, ?_,
    h.named⟩
  · intro p hp hkind
    exact h.opens.1.longest p ⟨hp.isSet, hp.nonempty, hwithin _ hp.begins hp.starts⟩ hkind
  · rintro p ⟨r, heq, hp⟩
    have hstarts : '\\' :: p.opening <+: o.opening ++ (body ++ (o.closing ++ rest)) := by
      rw [heq]
      exact List.cons_prefix_cons.mpr ⟨rfl, hp.starts⟩
    obtain ⟨r', hr'⟩ := hwithin _ (hp.toOffers.begins_escaped hp.among) hstarts
    have hoffers : ds.Offers p (p.opening ++ r') :=
      ⟨hp.isSet, hp.nonempty, List.prefix_append _ _⟩
    obtain ⟨q, hq⟩ := exists_escapes hp.among hoffers
    rw [← List.cons_append, hr'] at hq
    exact h.opens.2 q hq
  · refine h.closes.of_start ?_
    rw [← List.append_assoc]
    exact List.prefix_append _ _

/-- What has to be cut off in front of one text has to be cut off in front of another one, unless it
runs into it. -/
theorem fits_iff_not_straddles (h : ds.Fits after s) :
    ds.Fits rest s ↔ ¬ ds.Straddles rest s := by
  cases s with
  | text t =>
    constructor
    · rintro hfits ⟨u, v, w, rfl, hv, hw, hwv, -⟩
      exact isPlain_iff_begins.mp (hfits u v rfl hv) w hw hwv
    · intro hrest u v heq hv
      refine isPlain_iff_begins.mpr fun w hw hwv => ?_
      have hwithin : w <+: v := Classical.byContradiction fun hout =>
        hrest ⟨u, v, w, heq, hv, hw, hwv, hout⟩
      have hplain := isPlain_iff_begins.mp (h u v heq hv) w hw
      exact hplain (hwithin.trans (List.prefix_append _ _))
  | escapedOpening opening =>
    obtain ⟨o, rfl, r, heq, hopens⟩ := h
    cases heq
    constructor
    · rintro ⟨p, hopening, r, heq, hp⟩ ⟨q, hkind, hq, hout⟩
      cases heq
      have hlongest := hp.longest q hq hkind
      rw [hopening] at hlongest
      exact hout (List.prefix_of_prefix_length_le hq.starts (List.prefix_append _ _) (by omega))
    · intro hrest
      refine ⟨o, rfl, _, rfl, ⟨⟨hopens.isSet, hopens.nonempty, List.prefix_append _ _⟩,
        hopens.among, fun q hq hkind => ?_⟩⟩
      have hwithin : q.opening <+: o.opening := Classical.byContradiction fun hout =>
        hrest ⟨q, hkind, hq, hout⟩
      exact hopens.longest q ⟨hq.isSet, hq.nonempty, hwithin.trans (List.prefix_append _ _)⟩ hkind
  | directive opening lead name argument closing =>
    have hraw : (Segment.directive opening lead name argument closing).raw =
        opening ++ ((lead ++ (name ++ argument)) ++ closing) := by
      simp only [Segment.raw, List.append_assoc]
    constructor
    · rintro hfits ⟨w, hw, hwt, hout⟩
      rw [hraw] at hwt hout
      exact hout (IsRegion.not_straddled hfits hw hwt)
    · intro hrest
      refine IsRegion.of_not_straddled h fun w hw hwt =>
        Classical.byContradiction fun hout => hrest ⟨w, hw, ?_⟩
      rw [hraw]
      exact ⟨hwt, hout⟩
  | tag kind opening body closing =>
    constructor
    · rintro hfits ⟨w, hw, hwt, hout⟩
      exact hout (IsRegion.not_straddled hfits hw hwt)
    · intro hrest
      exact IsRegion.of_not_straddled h fun w hw hwt =>
        Classical.byContradiction fun hout => hrest ⟨w, hw, hwt, hout⟩

/-- Segments that fit elsewhere fit behind each other if none runs into the next ones. -/
theorem allFit_iff_seamless (h : ∀ s ∈ ss, ∃ after, ds.Fits after s) :
    ds.AllFit [] ss ↔ ds.Seamless ss := by
  induction ss with
  | nil =>
    constructor
    · intro _ front s rear heq
      simp at heq
    · exact fun _ => trivial
  | cons s ss ih =>
    obtain ⟨⟨after, hs⟩, hss⟩ := List.forall_mem_cons.mp h
    have hhead : ds.Fits (source ss ++ []) s ↔ ¬ ds.Straddles (source ss) s := by
      rw [List.append_nil]
      exact fits_iff_not_straddles hs
    rw [AllFit, hhead, ih hss]
    constructor
    · rintro ⟨hfirst, hrest⟩ front x rear heq
      rcases List.cons_eq_append_iff.mp heq with ⟨rfl, hx⟩ | ⟨front, rfl, hx⟩
      · cases hx
        exact hfirst
      · exact hrest front x rear hx
    · intro hall
      refine ⟨hall [] s ss rfl, fun front x rear heq => hall (s :: front) x rear ?_⟩
      rw [heq, List.cons_append]

theorem fits_text_append : ds.Fits rest (.text (t ++ u)) ↔
    ds.Fits (u ++ rest) (.text t) ∧ ds.Fits rest (.text u) := by
  constructor
  · intro h
    constructor
    · intro x v heq hv
      have hplain := h x (v ++ u) (by rw [heq, List.append_assoc])
        (List.append_ne_nil_of_left_ne_nil hv _)
      rwa [List.append_assoc] at hplain
    · intro x v heq hv
      exact h (t ++ x) v (by rw [heq, List.append_assoc]) hv
  · rintro ⟨ht, hu⟩ x v heq hv
    rcases List.append_eq_append_iff.mp heq with ⟨y, rfl, hy⟩ | ⟨y, rfl, rfl⟩
    · exact hu y v hy hv
    · by_cases hy : y = []
      · subst hy
        exact hu [] u rfl hv
      · have hplain := ht x y rfl hy
        rwa [← List.append_assoc] at hplain

theorem allFit_prependText : ds.AllFit rest (prependText t ss) ↔
    ds.Fits (source ss ++ rest) (.text t) ∧ ds.AllFit rest ss := by
  unfold prependText
  split
  next u ss =>
    rw [AllFit, AllFit, fits_text_append, source_cons, ← List.append_assoc, and_assoc]
    rfl
  next => rfl

theorem allFit_joinTexts : ds.AllFit rest (joinTexts ss) ↔ ds.AllFit rest ss := by
  induction ss using joinTexts.induct with
  | case1 => rfl
  | case2 t ss ih => rw [joinTexts, allFit_prependText, source_joinTexts, ih, AllFit]
  | case3 s ss hs ih => rw [joinTexts_of_ne_text hs, AllFit, AllFit, source_joinTexts, ih]

/-- The lexer cuts off a tag or an escaped opening that fits. -/
theorem segmentAt?_of_fits (hds : ds.Closes) (hs : s.isTagLike) (h : ds.Fits rest s)
    (line : Nat) : segmentAt? ds.openers line (s.raw ++ rest) = .ok (some s) := by
  cases s with
  | text t => cases hs
  | directive opening lead name argument closing => cases hs
  | escapedOpening opening =>
    obtain ⟨o, rfl, hescapes⟩ := h
    rw [segmentAt?, Segment.raw, List.cons_append, escapes_iff.mpr hescapes]
  | tag kind opening body closing =>
    have hregion : ds.IsRegion ⟨.tag kind, opening, closing⟩ body rest := h
    have hclosing := hregion.opens.closing_ne_nil hds
    have hbody : bodyBefore closing .code (line + opening.newlines)
        (body ++ (closing ++ rest)) = .ok body :=
      (bodyBefore_eq_ok_iff hclosing).mpr hregion.closes
    rw [Segment.raw, List.append_assoc, List.append_assoc, segmentAt?_of_opensRegion hregion.opens,
      regionAfter, hbody]
    rfl

theorem Cut.prependText (ht : t ≠ []) (hfits : ds.Fits (source ss) (.text t)) (h : ds.Cut ss) :
    ds.Cut (Stencil.prependText t ss) := by
  unfold Stencil.prependText
  split
  next u ss =>
    cases h with
    | text hu hufits hss hcut =>
      refine .text (List.append_ne_nil_of_left_ne_nil ht u) ?_ hss hcut
      exact fits_text_append.mpr ⟨hfits, hufits⟩
    | taken hs => exact (segmentAt?_ne_text (hs 1)).elim
  next hss => exact .text ht hfits hss h

/-- Segments that fit behind each other are those of their own source, once texts are joined. -/
theorem cut_joinTexts (hds : ds.Closes) (hne : ∀ s ∈ ss, s.raw ≠ [])
    (hverbatim : ∀ s ∈ ss, s.isDirective = false) (h : ds.AllFit [] ss) :
    ds.Cut (joinTexts ss) := by
  induction ss with
  | nil => exact .nil
  | cons s ss ih =>
    obtain ⟨hsne, hne⟩ := List.forall_mem_cons.mp hne
    obtain ⟨hsverbatim, hverbatim⟩ := List.forall_mem_cons.mp hverbatim
    obtain ⟨hfits, hrest⟩ := h
    have htail := ih hne hverbatim hrest
    rw [List.append_nil, ← source_joinTexts] at hfits
    cases s with
    | text t => exact htail.prependText hsne hfits
    | escapedOpening opening => exact .taken (segmentAt?_of_fits hds rfl hfits) htail
    | tag kind opening body closing => exact .taken (segmentAt?_of_fits hds rfl hfits) htail
    | directive opening lead name argument closing => cases hsverbatim

/-- Where the lexer cuts segments off, it cuts them off again when they are put behind each other
exactly if none runs into the next ones. -/
theorem segments_source_iff_seamless (hds : ds.Closes) (hne : ∀ s ∈ ss, s.raw ≠ [])
    (hverbatim : ∀ s ∈ ss, s.isDirective = false) (hfits : ∀ s ∈ ss, ∃ after, ds.Fits after s) :
    segments ds (source ss) = .ok (joinTexts ss) ↔ ds.Seamless ss := by
  rw [← allFit_iff_seamless hfits]
  constructor
  · intro h
    exact allFit_joinTexts.mp (allFit_of_segmentsFrom hds h)
  · intro h
    exact (segments_eq_ok_iff hds).mpr ⟨source_joinTexts ss, cut_joinTexts hds hne hverbatim h⟩

/-- A segment that was cut off is not empty, and fits where it stood. -/
theorem Cut.fits_of_mem (hds : ds.Closes) (h : ds.Cut ss) (hs : s ∈ ss) :
    s.raw ≠ [] ∧ ∃ after, ds.Fits after s := by
  induction h with
  | nil => cases hs
  | @text t ss ht hfits _ _ ih =>
    rcases List.mem_cons.mp hs with rfl | hs
    · exact ⟨ht, source ss, hfits⟩
    · exact ih hs
  | @taken s' ss htaken _ ih =>
    rcases List.mem_cons.mp hs with rfl | hs
    · obtain ⟨after, -, hfits⟩ := fits_of_segmentAt? hds (htaken 1)
      exact ⟨raw_ne_nil_of_segmentAt? (fun _ => opening_ne_nil) (htaken 1), after, hfits⟩
    · exact ih hs

end DelimiterSet

end Stencil
