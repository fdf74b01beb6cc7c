/- Which parts of a text the lexer cuts out, and which texts it cannot cut. -/
import Stencil.Proofs.Segment.Closings
import Stencil.Proofs.Segment.Openings
import Stencil.Segment.Token

namespace Stencil

/-- The body of a directive starts with a name, white space aside. -/
def IsNamed (body : Text) : Prop := ∃ c rest, body.trim = c :: rest ∧ Unicode.isWord c

theorem trimEnd_cons {c : Char} (hc : ¬ Unicode.isBlank c) (t : Text) :
    ∃ rest, Text.trimEnd (c :: t) = c :: rest := by
  unfold Text.trimEnd
  rw [List.reverse_cons, List.dropWhile_append]
  split
  · rw [List.dropWhile_cons_of_neg hc]
    exact ⟨[], rfl⟩
  · rw [List.reverse_append]
    exact ⟨_, rfl⟩

theorem isNamed_iff {body : Text} :
    IsNamed body ↔ ((body.dropWhile Unicode.isBlank).takeWhile Unicode.isWord).isEmpty = false := by
  unfold IsNamed Text.trim Text.trimStart
  cases hrest : body.dropWhile Unicode.isBlank with
  | nil => simp [Text.trimEnd]
  | cons c cs =>
    have hblank : ¬ Unicode.isBlank c := by
      have hhead := List.head_dropWhile_not Unicode.isBlank (l := body) (by simp [hrest])
      simpa [hrest] using hhead
    obtain ⟨rest, htrim⟩ := trimEnd_cons hblank cs
    rw [htrim, List.takeWhile_cons]
    cases hword : Unicode.isWord c <;> simp [hword]

namespace DelimiterSet

/-- A backslash in front of a tag makes it plain text. -/
def Escapes (ds : DelimiterSet) (o : Opener) (t : Text) : Prop :=
  ∃ rest, t = '\\' :: rest ∧ ds.Opens RegionKind.isTag o rest

/-- A region opens here. -/
def OpensRegion (ds : DelimiterSet) (o : Opener) (t : Text) : Prop :=
  ds.Opens (fun _ => true) o t ∧ ∀ p, ¬ ds.Escapes p t

/-- Nothing but text starts here: no opening, and no backslash with the opening of a tag. -/
def IsPlain (ds : DelimiterSet) (t : Text) : Prop :=
  (∀ o, ¬ ds.Offers o t) ∧ ∀ o rest, t = '\\' :: rest → o.kind.isTag → ¬ ds.Offers o rest

/-- A region with this body stands in front of `after`. -/
structure IsRegion (ds : DelimiterSet) (o : Opener) (body after : Text) : Prop where
  opens : ds.OpensRegion o (o.opening ++ (body ++ (o.closing ++ after)))
  closes : ClosesAfter o.closing body (body ++ (o.closing ++ after))
  named : o.kind = .directive → IsNamed body

/-- The segment is what has to be cut off in front of `after`. -/
def Fits (ds : DelimiterSet) (after : Text) : Segment → Prop
  | .text t => ∀ u v, t = u ++ v → v ≠ [] → ds.IsPlain (v ++ after)
  | .escapedOpening opening => ∃ o, o.opening = opening ∧ ds.Escapes o ('\\' :: (opening ++ after))
  | .directive opening lead name argument closing =>
    ds.IsRegion ⟨.directive, opening, closing⟩ (lead ++ (name ++ argument)) after
  | .tag kind opening body closing => ds.IsRegion ⟨.tag kind, opening, closing⟩ body after

/-- Each segment is what has to be cut off in front of the next ones and `rest`. -/
def AllFit (ds : DelimiterSet) (rest : Text) : List Segment → Prop
  | [] => True
  | s :: ss => ds.Fits (source ss ++ rest) s ∧ AllFit ds rest ss

/-- A region opens that never closes, or that is a directive without a name. -/
def Fails (ds : DelimiterSet) (t : Text) : Prop :=
  ∃ o rest, t = o.opening ++ rest ∧ ds.OpensRegion o t ∧
    ((∀ body, Unquoted body → ¬ body ++ o.closing <+: rest) ∨
      o.kind = .directive ∧ ∃ body, ClosesAfter o.closing body rest ∧ ¬ IsNamed body)

/-- No closing that is set is empty. -/
def Closes (ds : DelimiterSet) : Prop := ∀ kind d, ds.get? kind = some d → d.closing ≠ []

variable {ds : DelimiterSet} {line : Nat} {t : Text}

theorem opens_iff {o : Opener} :
    matchOpener? ds.openers t = some o ↔ ds.Opens (fun _ => true) o t := by
  rw [← openersOf_all, matchOpener?_eq_some_iff]

theorem escapes_iff {o : Opener} : escapedOpening? ds.openers t = some o ↔ ds.Escapes o t := by
  unfold escapedOpening? Escapes
  split
  next rest =>
    rw [← openersOf_isTag, matchOpener?_eq_some_iff]
    constructor
    · exact fun h => ⟨rest, rfl, h⟩
    · rintro ⟨other, heq, h⟩
      cases heq
      exact h
  next hne =>
    constructor
    · nofun
    · rintro ⟨rest, rfl, -⟩
      exact absurd rfl (hne rest)

theorem not_escapes_iff :
    escapedOpening? ds.openers t = none ↔ ∀ o, ¬ ds.Escapes o t := by
  rw [Option.eq_none_iff_forall_ne_some]
  exact forall_congr' fun o => not_congr escapes_iff

theorem isPlain_iff : ds.IsPlain t ↔
    escapedOpening? ds.openers t = none ∧ matchOpener? ds.openers t = none := by
  have hopening : matchOpener? ds.openers t = none ↔ ∀ o, ¬ ds.Offers o t := by
    rw [← openersOf_all, matchOpener?_eq_none_iff]
    simp
  have hescape : escapedOpening? ds.openers t = none ↔
      ∀ o rest, t = '\\' :: rest → o.kind.isTag → ¬ ds.Offers o rest := by
    unfold escapedOpening?
    split
    next rest =>
      rw [← openersOf_isTag, matchOpener?_eq_none_iff]
      constructor
      · intro h o other heq hkind
        cases heq
        exact h o hkind
      · exact fun h o => h o rest rfl
    next hne =>
      refine ⟨fun _ o rest heq => absurd heq (hne rest), fun _ => rfl⟩
  rw [hopening, hescape]
  exact And.comm

theorem opensRegion_iff {o : Opener} : ds.OpensRegion o t ↔
    escapedOpening? ds.openers t = none ∧ matchOpener? ds.openers t = some o := by
  rw [not_escapes_iff, opens_iff]
  exact And.comm

theorem OpensRegion.closing_ne_nil {o : Opener} (h : ds.OpensRegion o t) (hds : ds.Closes) :
    o.closing ≠ [] :=
  hds _ _ h.1.isSet

theorem exists_regionSegment_iff (line : Nat) {o : Opener} {body : Text} :
    (∃ s, regionSegment o line body = .ok s) ↔ (o.kind = .directive → IsNamed body) := by
  rw [isNamed_iff, regionSegment]
  split
  next kind hkind => simp [hkind]
  next hkind =>
    dsimp only
    split
    next hname => simp [hkind, hname]
    next hname => simp [hkind, hname]

theorem exists_regionSegment_error_iff (line : Nat) {o : Opener} {body : Text} :
    (∃ e, regionSegment o line body = .error e) ↔ o.kind = .directive ∧ ¬ IsNamed body := by
  rw [Outcome.exists_error_iff, exists_regionSegment_iff, Classical.not_imp]

theorem fits_of_regionSegment {o : Opener} {body after : Text} {s : Segment}
    (h : regionSegment o line body = .ok s) (hregion : ds.IsRegion o body after) :
    ds.Fits after s := by
  obtain ⟨kind, opening, closing⟩ := o
  unfold regionSegment at h
  split at h
  next kind hkind =>
    cases h
    cases hkind
    exact hregion
  next hkind =>
    cases hkind
    dsimp only at h
    split at h
    next => cases h
    next hname =>
      cases h
      rw [Fits, List.takeWhile_append_dropWhile, List.takeWhile_append_dropWhile]
      exact hregion

/-- What is cut off fits. -/
theorem fits_of_segmentAt? (hds : ds.Closes) {s : Segment}
    (h : segmentAt? ds.openers line t = .ok (some s)) :
    ∃ after, t = s.raw ++ after ∧ ds.Fits after s := by
  unfold segmentAt? at h
  split at h
  next o ho =>
    cases h
    obtain ⟨rest, rfl, hopens⟩ := escapes_iff.mp ho
    obtain ⟨after, rfl⟩ := hopens.starts
    exact ⟨after, rfl, o, rfl, _, rfl, hopens⟩
  next hescape =>
    split at h
    next o ho =>
      obtain ⟨s, hs, hsome⟩ := Outcome.map_eq_ok_iff.mp h
      cases hsome
      have hopens := opensRegion_iff.mpr ⟨hescape, ho⟩
      unfold regionAfter at hs
      split at hs
      next => cases hs
      next body hbody =>
        have hcloses := (bodyBefore_eq_ok_iff (hopens.closing_ne_nil hds)).mp hbody
        obtain ⟨after, hafter⟩ := hcloses.closes
        have htext : t = o.opening ++ (body ++ (o.closing ++ after)) := by
          rw [← List.append_assoc body, hafter, append_drop_of_matchOpener? ho]
        rw [← hafter, List.append_assoc] at hcloses
        rw [htext] at hopens
        have hnamed := (exists_regionSegment_iff line).mp ⟨s, hs⟩
        refine ⟨after, ?_, fits_of_regionSegment hs ⟨hopens, hcloses, hnamed⟩⟩
        rw [raw_of_regionSegment hs, htext]
        simp only [List.append_assoc]
    next => cases h

theorem isPlain_of_segmentAt? (h : segmentAt? ds.openers line t = .ok none) : ds.IsPlain t := by
  unfold segmentAt? at h
  split at h
  next => cases h
  next hescape =>
    split at h
    next =>
      obtain ⟨s, -, hnone⟩ := Outcome.map_eq_ok_iff.mp h
      cases hnone
    next ho => exact isPlain_iff.mpr ⟨hescape, ho⟩

theorem segmentAt?_of_isPlain (h : ds.IsPlain t) : segmentAt? ds.openers line t = .ok none := by
  obtain ⟨hescape, ho⟩ := isPlain_iff.mp h
  rw [segmentAt?, hescape, ho]

theorem segmentAt?_of_opensRegion {o : Opener} {rest : Text}
    (h : ds.OpensRegion o (o.opening ++ rest)) :
    segmentAt? ds.openers line (o.opening ++ rest) = (regionAfter o line rest).map some := by
  obtain ⟨hescape, ho⟩ := opensRegion_iff.mp h
  rw [segmentAt?, hescape, ho]
  simp only [List.drop_left]

/-- What fits is cut off. -/
theorem segmentAt?_of_isRegion (line : Nat) (hds : ds.Closes) {o : Opener} {body after : Text}
    (h : ds.IsRegion o body after) :
    ∃ s, segmentAt? ds.openers line (o.opening ++ (body ++ (o.closing ++ after))) = .ok (some s) ∧
      s.raw = o.opening ++ (body ++ o.closing) := by
  rw [segmentAt?_of_opensRegion h.opens, regionAfter,
    (bodyBefore_eq_ok_iff (h.opens.closing_ne_nil hds)).mpr h.closes]
  obtain ⟨s, hs⟩ := (exists_regionSegment_iff line).mpr h.named
  refine ⟨s, ?_, raw_of_regionSegment hs⟩
  simp only [hs]
  rfl

/-- A region starts that cannot be cut off. -/
theorem exists_error_iff_fails (line : Nat) (hds : ds.Closes) :
    (∃ e, segmentAt? ds.openers line t = .error e) ↔ ds.Fails t := by
  constructor
  · rintro ⟨e, h⟩
    unfold segmentAt? at h
    split at h
    next => cases h
    next hescape =>
      split at h
      next o ho =>
        have hopens := opensRegion_iff.mpr ⟨hescape, ho⟩
        have hclosing := hopens.closing_ne_nil hds
        have hregion := Outcome.map_eq_error_iff.mp h
        refine ⟨o, _, (append_drop_of_matchOpener? ho).symm, hopens, ?_⟩
        unfold regionAfter at hregion
        split at hregion
        next u hbody => exact .inl ((exists_bodyBefore_error_iff _ hclosing).mp ⟨u, hbody⟩)
        next body hbody =>
          obtain ⟨hkind, hname⟩ := (exists_regionSegment_error_iff line).mp ⟨e, hregion⟩
          exact .inr ⟨hkind, body, (bodyBefore_eq_ok_iff hclosing).mp hbody, hname⟩
      next => cases h
  · rintro ⟨o, rest, rfl, hopens, hfault⟩
    have hclosing := hopens.closing_ne_nil hds
    have hregion : ∃ e, regionAfter o line rest = .error e := by
      unfold regionAfter
      rcases hfault with hopen | ⟨hkind, body, hcloses, hname⟩
      · obtain ⟨u, hu⟩ := (exists_bodyBefore_error_iff _ hclosing).mpr hopen
        rw [hu]
        exact ⟨_, rfl⟩
      · rw [(bodyBefore_eq_ok_iff hclosing).mpr hcloses]
        exact (exists_regionSegment_error_iff line).mpr ⟨hkind, hname⟩
    obtain ⟨e, he⟩ := hregion
    exact ⟨e, by rw [segmentAt?_of_opensRegion hopens, he]; rfl⟩

/-- A segment that was taken is skipped character by character. -/
theorem segmentsFrom_append (os : List Opener) (r t : Text) (line : Nat) :
    segmentsFrom os r.length line (r ++ t) = segmentsFrom os 0 (line + r.newlines) t := by
  induction r generalizing line with
  | nil => rfl
  | cons c r ih =>
    rw [List.cons_append, List.length_cons, segmentsFrom, ih, Text.lineAfter_eq,
      Text.newlines_cons c r, Nat.add_assoc]

theorem AllFit.consText {c : Char} {rest : Text} {ss : List Segment}
    (hc : ds.IsPlain (c :: (source ss ++ rest))) (h : ds.AllFit rest ss) :
    ds.AllFit rest (Stencil.consText c ss) := by
  have hsplit : ∀ {t u v after : Text}, c :: t = u ++ v → v ≠ [] → ds.IsPlain (c :: (t ++ after)) →
      ds.Fits after (.text t) → ds.IsPlain (v ++ after) := by
    intro t u v after heq hv hplain hfits
    cases u with
    | nil =>
      rw [← show c :: t = v from heq]
      exact hplain
    | cons d u =>
      cases heq
      exact hfits u v rfl hv
  unfold Stencil.consText
  split
  next t ss =>
    obtain ⟨hfits, hrest⟩ := h
    rw [source_cons, List.append_assoc] at hc
    exact ⟨fun u v heq hv => hsplit heq hv hc hfits, hrest⟩
  next =>
    refine ⟨fun u v heq hv => hsplit (t := []) heq hv hc ?_, h⟩
    intro u v heq hv
    exact absurd (List.append_eq_nil_iff.mp heq.symm).2 hv

/-- The lexer cuts off what has to be cut off, up to the end. -/
theorem allFit_of_segmentsFrom (hds : ds.Closes) {skip : Nat} {ss : List Segment}
    (h : segmentsFrom ds.openers skip line t = .ok ss) : ds.AllFit [] ss := by
  induction t generalizing skip line ss with
  | nil => cases skip <;> (cases h; trivial)
  | cons c cs ih =>
    cases skip with
    | succ skip => exact ih h
    | zero =>
      have hsource := source_segmentsFrom (fun _ => opening_ne_nil) h
      rw [segmentsFrom] at h
      split at h
      next => cases h
      next s hs =>
        obtain ⟨rest, hrest, rfl⟩ := Outcome.map_eq_ok_iff.mp h
        obtain ⟨after, hafter, hfits⟩ := fits_of_segmentAt? hds hs
        rw [List.drop_zero, hafter, source_cons] at hsource
        rw [← List.append_cancel_left hsource] at hfits
        exact ⟨by simpa using hfits, ih hrest⟩
      next hs =>
        obtain ⟨rest, hrest, rfl⟩ := Outcome.map_eq_ok_iff.mp h
        have hplain := isPlain_of_segmentAt? hs
        rw [List.drop_zero, source_consText] at hsource
        rw [← hsource, ← List.append_nil (source rest)] at hplain
        exact (ih hrest).consText hplain

/-- Where the lexer gives up, all that fits was cut off and a region fails. -/
theorem exists_fails_of_segmentsFrom (hds : ds.Closes) {skip : Nat} {e : LexError}
    (h : segmentsFrom ds.openers skip line t = .error e) :
    ∃ ss rest, t.drop skip = source ss ++ rest ∧ ds.AllFit rest ss ∧ ds.Fails rest := by
  induction t generalizing skip line with
  | nil => cases skip <;> cases h
  | cons c cs ih =>
    cases skip with
    | succ skip => exact ih h
    | zero =>
      rw [segmentsFrom] at h
      split at h
      next e' he =>
        exact ⟨[], c :: cs, rfl, trivial, (exists_error_iff_fails line hds).mp ⟨e', he⟩⟩
      next s hs =>
        obtain ⟨ss, rest, hdrop, hall, hfails⟩ := ih (Outcome.map_eq_error_iff.mp h)
        obtain ⟨after, hafter, hfits⟩ := fits_of_segmentAt? hds hs
        obtain ⟨n, hn⟩ := Nat.exists_eq_succ_of_ne_zero fun h0 =>
          raw_ne_nil_of_segmentAt? (fun _ => opening_ne_nil) hs (List.length_eq_zero_iff.mp h0)
        have hrest : after = source ss ++ rest := by
          rw [← hdrop, hn, Nat.succ_sub_one, ← List.drop_succ_cons, ← Nat.succ_eq_add_one, ← hn,
            hafter, List.drop_left]
        refine ⟨s :: ss, rest, ?_, ⟨hrest ▸ hfits, hall⟩, hfails⟩
        rw [List.drop_zero, hafter, hrest, source_cons, List.append_assoc]
      next hs =>
        obtain ⟨ss, rest, hdrop, hall, hfails⟩ := ih (Outcome.map_eq_error_iff.mp h)
        have hplain := isPlain_of_segmentAt? hs
        rw [List.drop_zero] at hdrop
        rw [hdrop] at hplain ⊢
        refine ⟨Stencil.consText c ss, rest, ?_, hall.consText hplain, hfails⟩
        rw [source_consText, List.drop_zero, List.cons_append]

/-- The lexer takes a segment that fits and goes on behind it. -/
theorem segmentsFrom_of_segmentAt? {raw after : Text} {s : Segment} (hraw : s.raw = raw)
    (hne : raw ≠ []) (h : segmentAt? ds.openers line (raw ++ after) = .ok (some s)) :
    segmentsFrom ds.openers 0 line (raw ++ after) =
      (segmentsFrom ds.openers 0 (line + raw.newlines) after).map (s :: ·) := by
  obtain ⟨c, r, rfl⟩ := List.exists_cons_of_ne_nil hne
  rw [List.cons_append] at h ⊢
  rw [segmentsFrom, h]
  simp only [hraw, List.length_cons, Nat.add_sub_cancel]
  rw [segmentsFrom_append, Text.lineAfter_eq, Text.newlines_cons c r, Nat.add_assoc]

theorem segmentsFrom_of_isPlain {c : Char} {cs : Text} (h : ds.IsPlain (c :: cs)) :
    segmentsFrom ds.openers 0 line (c :: cs) =
      (segmentsFrom ds.openers 0 (Text.lineAfter line c) cs).map (consText c) := by
  rw [segmentsFrom, segmentAt?_of_isPlain h]

theorem exists_error_of_segmentAt? {raw after : Text} {s : Segment} (hraw : s.raw = raw)
    (hne : raw ≠ []) (hs : segmentAt? ds.openers line (raw ++ after) = .ok (some s))
    (h : ∀ line, ∃ e, segmentsFrom ds.openers 0 line after = .error e) :
    ∃ e, segmentsFrom ds.openers 0 line (raw ++ after) = .error e := by
  obtain ⟨e, he⟩ := h (line + raw.newlines)
  rw [segmentsFrom_of_segmentAt? hraw hne hs, he]
  exact ⟨e, rfl⟩

theorem exists_error_of_isRegion (hds : ds.Closes) {o : Opener} {body after : Text}
    (hregion : ds.IsRegion o body after)
    (h : ∀ line, ∃ e, segmentsFrom ds.openers 0 line after = .error e) (line : Nat) :
    ∃ e, segmentsFrom ds.openers 0 line (o.opening ++ (body ++ o.closing) ++ after) = .error e := by
  obtain ⟨s, hs, hraw⟩ := segmentAt?_of_isRegion line hds hregion
  refine exists_error_of_segmentAt? hraw ?_ ?_ h
  · exact List.append_ne_nil_of_left_ne_nil hregion.opens.1.nonempty _
  · simpa only [List.append_assoc] using hs

theorem exists_error_of_text {t after : Text} (hs : ds.Fits after (.text t))
    (h : ∀ line, ∃ e, segmentsFrom ds.openers 0 line after = .error e) (line : Nat) :
    ∃ e, segmentsFrom ds.openers 0 line (t ++ after) = .error e := by
  induction t generalizing line with
  | nil => exact h line
  | cons c t ih =>
    have hplain := hs [] (c :: t) rfl (List.cons_ne_nil c t)
    have htail : ds.Fits after (.text t) := fun u v heq hv =>
      hs (c :: u) v (congrArg (c :: ·) heq) hv
    obtain ⟨e, he⟩ := ih htail (Text.lineAfter line c)
    rw [List.cons_append] at hplain ⊢
    rw [segmentsFrom_of_isPlain hplain, he]
    exact ⟨e, rfl⟩

/-- A text cannot be cut if what fits in front of the rest leaves a rest that cannot be cut. -/
theorem exists_error_of_fits (hds : ds.Closes) {s : Segment} {after : Text} (hs : ds.Fits after s)
    (h : ∀ line, ∃ e, segmentsFrom ds.openers 0 line after = .error e) (line : Nat) :
    ∃ e, segmentsFrom ds.openers 0 line (s.raw ++ after) = .error e := by
  cases s with
  | text t => exact exists_error_of_text hs h line
  | escapedOpening opening =>
    obtain ⟨o, rfl, hescapes⟩ := hs
    refine exists_error_of_segmentAt? (s := .escapedOpening o.opening) rfl
      (List.cons_ne_nil _ _) ?_ h
    rw [segmentAt?, Segment.raw, List.cons_append, escapes_iff.mpr hescapes]
  | directive opening lead name argument closing =>
    have herror := exists_error_of_isRegion hds hs h line
    simpa only [Segment.raw, List.append_assoc] using herror
  | tag kind opening body closing =>
    have herror := exists_error_of_isRegion hds hs h line
    simpa only [Segment.raw, List.append_assoc] using herror

theorem exists_error_of_fails (hds : ds.Closes) {ss : List Segment} {rest : Text}
    (hss : ds.AllFit rest ss) (hrest : ds.Fails rest) (line : Nat) :
    ∃ e, segmentsFrom ds.openers 0 line (source ss ++ rest) = .error e := by
  induction ss generalizing line with
  | nil =>
    obtain ⟨e, he⟩ := (exists_error_iff_fails line hds).mpr hrest
    obtain ⟨o, tail, rfl, hopens, -⟩ := hrest
    obtain ⟨c, cs, hcons⟩ := List.exists_cons_of_ne_nil
      (List.append_ne_nil_of_left_ne_nil hopens.1.nonempty tail)
    rw [hcons] at he
    rw [source_nil, List.nil_append, hcons, segmentsFrom, he]
    exact ⟨e, rfl⟩
  | cons s ss ih =>
    rw [source_cons, List.append_assoc]
    exact exists_error_of_fits hds hss.1 (ih hss.2) line

end DelimiterSet

theorem DelimiterSet.closes_usual : ({} : DelimiterSet).Closes := by
  intro kind d hd
  rcases kind with _ | _ | _ <;> (cases hd; decide)

end Stencil
