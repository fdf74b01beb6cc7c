/- A stretch of a text from one segment to another is cut on its own as it is within the text. -/
import Stencil.Proofs.Segment.Regions

namespace Stencil

/-- Where a body ends depends only on the text up to the end of its region. -/
theorem ClosesAfter.of_start {closing body t u : Text} (h : ClosesAfter closing body t)
    (hu : body ++ closing <+: u) : ClosesAfter closing body u := by
  refine ⟨h.unquoted, hu, fun other hother hcloses => ?_⟩
  rcases Nat.le_total body.length other.length with hle | hge
  · exact hle
  · have hlength : (other ++ closing).length ≤ (body ++ closing).length := by
      rw [List.length_append, List.length_append]
      exact Nat.add_le_add_right hge _
    have hwithin := List.prefix_of_prefix_length_le hcloses hu hlength
    exact h.first other hother (hwithin.trans h.closes)

namespace DelimiterSet

variable {ds : DelimiterSet} {kinds : RegionKind → Bool} {o : Opener} {line : Nat} {t u : Text}
  {s : Segment} {ss ts : List Segment}

theorem Offers.extend (h : ds.Offers o u) (hu : u <+: t) : ds.Offers o t :=
  ⟨h.isSet, h.nonempty, h.starts.trans hu⟩

/-- A longer text can only start with more openings. -/
theorem Opens.shorten (h : ds.Opens kinds o t) (hu : u <+: t) (ho : o.opening <+: u) :
    ds.Opens kinds o u where
  isSet := h.isSet
  nonempty := h.nonempty
  starts := ho
  among := h.among
  longest := fun p hp => h.longest p (hp.extend hu)

theorem Escapes.shorten (h : ds.Escapes o t) (hu : u <+: t) (ho : '\\' :: o.opening <+: u) :
    ds.Escapes o u := by
  obtain ⟨rest, rfl, hopens⟩ := h
  obtain ⟨after, rfl⟩ := ho
  have hrest := (List.cons_prefix_cons.mp hu).2
  exact ⟨o.opening ++ after, rfl, hopens.shorten hrest (List.prefix_append _ _)⟩

theorem IsPlain.shorten (h : ds.IsPlain t) (hu : u <+: t) : ds.IsPlain u := by
  refine ⟨fun o ho => h.1 o (ho.extend hu), fun o rest heq hkind ho => ?_⟩
  obtain ⟨after, rfl⟩ := hu
  rw [heq] at h
  exact h.2 o (rest ++ after) rfl hkind (ho.extend (List.prefix_append _ _))

theorem OpensRegion.shorten (h : ds.OpensRegion o t) (hu : u <+: t) (ho : o.opening <+: u) :
    ds.OpensRegion o u := by
  refine ⟨h.1.shorten hu ho, fun p hp => ?_⟩
  obtain ⟨rest, rfl, hopens⟩ := hp
  obtain ⟨after, rfl⟩ := hu
  -- A longer text may escape a longer opening, but it escapes one.
  obtain ⟨q, hq⟩ : ∃ q, matchOpener? (ds.openersOf RegionKind.isTag) (rest ++ after) = some q := by
    rw [← Option.ne_none_iff_exists']
    intro hnone
    exact matchOpener?_eq_none_iff.mp hnone p hopens.among
      (hopens.toOffers.extend (List.prefix_append _ _))
  exact h.2 q ⟨rest ++ after, rfl, matchOpener?_eq_some_iff.mp hq⟩

theorem ok_regionSegment_of_line {body : Text} (h : regionSegment o line body = .ok s)
    (other : Nat) : regionSegment o other body = .ok s := by
  unfold regionSegment at h ⊢
  split at h
  next => exact h
  next =>
    dsimp only at h ⊢
    split at h
    next => cases h
    next hname => rw [if_neg hname, h]

/-- A segment is cut off a text on any line, and whatever follows it that far. -/
theorem segmentAt?_shorten (hds : ds.Closes) (h : segmentAt? ds.openers line t = .ok (some s))
    (hu : u <+: t) (hs : s.raw <+: u) (other : Nat) :
    segmentAt? ds.openers other u = .ok (some s) := by
  unfold segmentAt? at h
  split at h
  next o ho =>
    cases h
    rw [segmentAt?, escapes_iff.mpr ((escapes_iff.mp ho).shorten hu hs)]
  next hescape =>
    split at h
    next o ho =>
      obtain ⟨s, hs', hsome⟩ := Outcome.map_eq_ok_iff.mp h
      cases hsome
      have hopens := opensRegion_iff.mpr ⟨hescape, ho⟩
      unfold regionAfter at hs'
      split at hs'
      next => cases hs'
      next body hbody =>
        have hclosing := hopens.closing_ne_nil hds
        have hcloses := (bodyBefore_eq_ok_iff hclosing).mp hbody
        rw [raw_of_regionSegment hs'] at hs
        obtain ⟨after, rfl⟩ := hs
        rw [List.append_assoc, List.append_assoc] at hu ⊢
        have hopens' := hopens.shorten hu (List.prefix_append _ _)
        have hstart : body ++ o.closing <+: body ++ (o.closing ++ after) := by
          rw [← List.append_assoc]
          exact List.prefix_append _ _
        rw [segmentAt?_of_opensRegion hopens', regionAfter,
          (bodyBefore_eq_ok_iff hclosing).mpr (hcloses.of_start hstart)]
        dsimp only
        rw [ok_regionSegment_of_line hs']
        rfl
    next => cases h

theorem segmentAt?_ne_text (h : segmentAt? ds.openers line t = .ok (some (.text u))) : False := by
  unfold segmentAt? at h
  split at h
  next => cases h
  next =>
    split at h
    next o _ =>
      obtain ⟨s, hs, hsome⟩ := Outcome.map_eq_ok_iff.mp h
      cases hsome
      unfold regionAfter at hs
      split at hs
      next => cases hs
      next =>
        unfold regionSegment at hs
        split at hs
        next => cases hs
        next =>
          dsimp only at hs
          split at hs <;> cases hs
    next => cases h

/-- The segments into which their own source is cut. No text could be longer. -/
inductive Cut (ds : DelimiterSet) : List Segment → Prop
  | nil : Cut ds []
  | text {t : Text} {ss : List Segment} : t ≠ [] → ds.Fits (source ss) (.text t) →
      (∀ u us, ss ≠ .text u :: us) → Cut ds ss → Cut ds (.text t :: ss)
  | taken {s : Segment} {ss : List Segment} :
      (∀ line, segmentAt? ds.openers line (s.raw ++ source ss) = .ok (some s)) →
      Cut ds ss → Cut ds (s :: ss)

theorem Cut.tail (h : ds.Cut (s :: ss)) : ds.Cut ss := by
  cases h with
  | text _ _ _ h => exact h
  | taken _ h => exact h

theorem Cut.allFit (hds : ds.Closes) (h : ds.Cut ss) : ds.AllFit [] ss := by
  induction h with
  | nil => trivial
  | text _ hfits _ _ ih => exact ⟨by rwa [List.append_nil], ih⟩
  | taken hs _ ih =>
    obtain ⟨after, hafter, hfits⟩ := fits_of_segmentAt? hds (hs 1)
    rw [← List.append_cancel_left hafter] at hfits
    exact ⟨by rwa [List.append_nil], ih⟩

theorem Cut.consText {c : Char} (hds : ds.Closes) (hc : ds.IsPlain (c :: source ss))
    (h : ds.Cut ss) : ds.Cut (Stencil.consText c ss) := by
  have hfits : ds.AllFit [] (Stencil.consText c ss) :=
    (h.allFit hds).consText (by rwa [List.append_nil])
  unfold Stencil.consText at hfits ⊢
  split at hfits
  next t ss =>
    have hhead := hfits.1
    rw [List.append_nil] at hhead
    cases h with
    | text _ _ hss h => exact .text (List.cons_ne_nil _ _) hhead hss h
    | taken hs => exact (segmentAt?_ne_text (hs 1)).elim
  next hss =>
    have hhead := hfits.1
    rw [List.append_nil] at hhead
    exact .text (List.cons_ne_nil _ _) hhead hss h

theorem cut_of_segmentsFrom (hds : ds.Closes) {skip : Nat}
    (h : segmentsFrom ds.openers skip line t = .ok ss) : ds.Cut ss := by
  induction t generalizing skip line ss with
  | nil => cases skip <;> (cases h; exact .nil)
  | cons c cs ih =>
    cases skip with
    | succ skip => exact ih h
    | zero =>
      have hsource := source_segmentsFrom (fun _ => opening_ne_nil) h
      rw [List.drop_zero] at hsource
      rw [segmentsFrom] at h
      split at h
      next => cases h
      next s hs =>
        obtain ⟨rest, hrest, rfl⟩ := Outcome.map_eq_ok_iff.mp h
        rw [← hsource, source_cons] at hs
        exact .taken (segmentAt?_shorten hds hs List.prefix_rfl (List.prefix_append _ _))
          (ih hrest)
      next hs =>
        obtain ⟨rest, hrest, rfl⟩ := Outcome.map_eq_ok_iff.mp h
        have hplain := isPlain_of_segmentAt? hs
        rw [← hsource, source_consText] at hplain
        exact (ih hrest).consText hds hplain

theorem consText_of_ne_text (c : Char) (hss : ∀ u us, ss ≠ .text u :: us) :
    consText c ss = .text [c] :: ss := by
  unfold consText
  split
  next u us => exact absurd rfl (hss u us)
  next => rfl

theorem segmentsFrom_of_text (ht : t ≠ []) (hfits : ds.Fits (source ss) (.text t))
    (hss : ∀ u us, ss ≠ .text u :: us)
    (h : ∀ line, segmentsFrom ds.openers 0 line (source ss) = .ok ss) (line : Nat) :
    segmentsFrom ds.openers 0 line (t ++ source ss) = .ok (.text t :: ss) := by
  induction t generalizing line with
  | nil => exact absurd rfl ht
  | cons c t ih =>
    have hplain := hfits [] (c :: t) rfl ht
    rw [List.cons_append] at hplain ⊢
    rw [segmentsFrom_of_isPlain hplain]
    cases t with
    | nil =>
      rw [List.nil_append, h, ← consText_of_ne_text c hss]
      rfl
    | cons d t =>
      have htail : ds.Fits (source ss) (.text (d :: t)) := fun u v heq hv =>
        hfits (c :: u) v (congrArg (c :: ·) heq) hv
      rw [ih (List.cons_ne_nil d t) htail]
      rfl

theorem segmentsFrom_of_cut (h : ds.Cut ss) (line : Nat) :
    segmentsFrom ds.openers 0 line (source ss) = .ok ss := by
  induction h generalizing line with
  | nil => rfl
  | text ht hfits hss _ ih => exact segmentsFrom_of_text ht hfits hss ih line
  | taken hs _ ih =>
    have hne := raw_ne_nil_of_segmentAt? (fun _ => opening_ne_nil) (hs line)
    rw [source_cons, segmentsFrom_of_segmentAt? rfl hne (hs line), ih]
    rfl

/-- The segments of a text are those of any text with the same source that are cut. -/
theorem segments_eq_ok_iff (hds : ds.Closes) :
    segments ds t = .ok ss ↔ source ss = t ∧ ds.Cut ss := by
  constructor
  · exact fun h => ⟨source_segments h, cut_of_segmentsFrom hds h⟩
  · rintro ⟨rfl, h⟩
    exact segmentsFrom_of_cut h 1

theorem Cut.of_append_left (hds : ds.Closes) (h : ds.Cut (ss ++ ts)) : ds.Cut ss := by
  induction ss with
  | nil => exact .nil
  | cons s ss ih =>
    have hprefix : source ss <+: source (ss ++ ts) := by
      rw [source_append]
      exact List.prefix_append _ _
    rw [List.cons_append] at h
    have htail := ih h.tail
    cases h with
    | text ht hfits hss _ =>
      refine .text ht (fun u v heq hv => ?_) (fun u us heq => hss u (us ++ ts) ?_) htail
      · exact (hfits u v heq hv).shorten ((List.prefix_append_right_inj v).mpr hprefix)
      · rw [heq, List.cons_append]
    | taken hs _ =>
      refine .taken (fun line => ?_) htail
      exact segmentAt?_shorten hds (hs line) ((List.prefix_append_right_inj s.raw).mpr hprefix)
        (List.prefix_append _ _) line

theorem Cut.of_append_right (h : ds.Cut (ss ++ ts)) : ds.Cut ts := by
  induction ss with
  | nil => exact h
  | cons s ss ih => exact ih h.tail

/-- A stretch of a text that starts and ends between segments has these segments on its own. -/
theorem segments_stretch (hds : ds.Closes) {front inner rear : List Segment}
    (h : segments ds t = .ok (front ++ (inner ++ rear))) :
    segments ds (source inner) = .ok inner := by
  have hcut := ((segments_eq_ok_iff hds).mp h).2.of_append_right.of_append_left hds
  exact (segments_eq_ok_iff hds).mpr ⟨rfl, hcut⟩

end DelimiterSet

end Stencil
