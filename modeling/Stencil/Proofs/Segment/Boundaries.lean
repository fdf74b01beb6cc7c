/- Texts cut at a place between segments, and segments told apart by their tokens. -/
import Stencil.Proofs.Segment.Concatenation

namespace Stencil

variable {ds : DelimiterSet} {line skip : Nat} {t : Text} {s : Segment} {ss ts : List Segment}

theorem Text.append_inj_of_byteSize {t u v w : Text} (h : t ++ v = u ++ w)
    (hsize : t.byteSize = u.byteSize) : t = u ∧ v = w := by
  rcases List.append_eq_append_iff.mp h with ⟨x, rfl, rfl⟩ | ⟨x, rfl, rfl⟩
  · obtain rfl : x = [] := by
      by_contra hx
      have hpos := byteSize_pos hx
      rw [byteSize_append] at hsize
      omega
    exact ⟨(List.append_nil t).symm, rfl⟩
  · obtain rfl : x = [] := by
      by_contra hx
      have hpos := byteSize_pos hx
      rw [byteSize_append] at hsize
      omega
    exact ⟨List.append_nil u, rfl⟩

/-- No segment is empty. -/
theorem raw_ne_nil_of_segmentsFrom (h : segmentsFrom ds.openers skip line t = .ok ss) :
    ∀ s ∈ ss, s.raw ≠ [] := by
  induction t generalizing skip line ss with
  | nil => cases skip <;> (cases h; exact List.forall_mem_nil _)
  | cons c cs ih =>
    cases skip with
    | succ skip => exact ih h
    | zero =>
      rw [segmentsFrom] at h
      split at h
      next => cases h
      next s hs =>
        obtain ⟨rest, hrest, rfl⟩ := Outcome.map_eq_ok_iff.mp h
        have hne := raw_ne_nil_of_segmentAt? (fun _ => DelimiterSet.opening_ne_nil) hs
        exact List.forall_mem_cons.mpr ⟨hne, ih hrest⟩
      next =>
        obtain ⟨rest, hrest, rfl⟩ := Outcome.map_eq_ok_iff.mp h
        have hne := ih hrest
        unfold consText
        split
        next u us =>
          exact List.forall_mem_cons.mpr ⟨List.cons_ne_nil _ _, fun x hx => hne x (.tail _ hx)⟩
        next => exact List.forall_mem_cons.mpr ⟨List.cons_ne_nil _ _, hne⟩

/-- A text is cut alike wherever it stands. -/
theorem segmentsFrom_of_line {os : List Opener} {skip : Nat}
    (h : segmentsFrom os skip line t = .ok ss) (other : Nat) :
    segmentsFrom os skip other t = .ok ss := by
  have hmoved : ∀ lines, segmentsFrom os skip lines t =
      (segmentsFrom os skip 0 t).mapError (LexError.moved lines) := by
    intro lines
    rw [← segmentsFrom_moved, Nat.zero_add]
  rw [hmoved] at h ⊢
  rw [Outcome.mapError_eq_ok_iff.mp h]
  rfl

theorem exists_of_consText_eq_append (hs : ∀ u, s ≠ .text u) {c : Char} {xs : List Segment}
    (h : consText c xs = ss ++ s :: ts) :
    ∃ front, xs = front ++ s :: ts ∧ ss = consText c front := by
  unfold consText at h
  split at h
  next u us =>
    rcases List.cons_eq_append_iff.mp h with ⟨rfl, hhead⟩ | ⟨front, rfl, rfl⟩
    · exact absurd (List.cons.inj hhead).1 (hs _)
    · exact ⟨.text u :: front, rfl, rfl⟩
  next hxs =>
    rcases List.cons_eq_append_iff.mp h with ⟨rfl, hhead⟩ | ⟨front, rfl, rfl⟩
    · exact absurd (List.cons.inj hhead).1 (hs _)
    · refine ⟨front, rfl, (DelimiterSet.consText_of_ne_text c fun u us hfront => ?_).symm⟩
      exact hxs u (us ++ s :: ts) (by rw [hfront]; rfl)

/-- What follows a directive or a tag is cut alike on its own. -/
theorem segmentsFrom_rear (hs : ∀ u, s ≠ .text u)
    (h : segmentsFrom ds.openers skip line t = .ok (ss ++ s :: ts)) (other : Nat) :
    segmentsFrom ds.openers 0 other (source ts) = .ok ts := by
  induction t generalizing skip line ss with
  | nil => cases skip <;> (cases ss <;> cases h)
  | cons c cs ih =>
    cases skip with
    | succ skip => exact ih h
    | zero =>
      rw [segmentsFrom] at h
      split at h
      next => cases h
      next first hfirst =>
        obtain ⟨rest, hrest, hsplit⟩ := Outcome.map_eq_ok_iff.mp h
        rcases List.cons_eq_append_iff.mp hsplit with ⟨rfl, hhead⟩ | ⟨ss, rfl, rfl⟩
        · obtain ⟨rfl, rfl⟩ := List.cons.inj hhead
          have hsource := source_segmentsFrom (fun _ => DelimiterSet.opening_ne_nil) hrest
          have hne := raw_ne_nil_of_segmentAt? (fun _ => DelimiterSet.opening_ne_nil) hfirst
          obtain ⟨after, hafter⟩ := raw_of_segmentAt? hfirst
          obtain ⟨d, r, hraw⟩ := List.exists_cons_of_ne_nil hne
          rw [hraw] at hafter hrest hsource
          have hcs : r ++ after = cs := (List.cons.inj hafter).2
          rw [List.length_cons, Nat.add_sub_cancel, ← hcs] at hrest hsource
          rw [DelimiterSet.segmentsFrom_append] at hrest
          rw [hsource, List.drop_left]
          exact segmentsFrom_of_line hrest other
        · exact ih hrest
      next =>
        obtain ⟨rest, hrest, hsplit⟩ := Outcome.map_eq_ok_iff.mp h
        obtain ⟨front, rfl, -⟩ := exists_of_consText_eq_append hs hsplit
        exact ih hrest

/-- A segment that ends with a text is cut off that text alone, if anything is. -/
theorem segmentAt?_within {u : Text} {found : Option Segment}
    (h : segmentAt? ds.openers line (t ++ u) = .ok (some s)) (hs : s.raw <+: t)
    (hfound : segmentAt? ds.openers line t = .ok found) : found = some s := by
  have hlonger := List.prefix_append t u
  unfold segmentAt? at h
  split at h
  next o ho =>
    cases h
    have hescapes := (DelimiterSet.escapes_iff.mp ho).shorten hlonger hs
    rw [segmentAt?, DelimiterSet.escapes_iff.mpr hescapes] at hfound
    exact (Except.ok.inj hfound).symm
  next hescape =>
    split at h
    next o ho =>
      obtain ⟨taken, htaken, hsome⟩ := Outcome.map_eq_ok_iff.mp h
      cases hsome
      have hopening : o.opening <+: t := by
        unfold regionAfter at htaken
        split at htaken
        next => cases htaken
        next body _ =>
          rw [raw_of_regionSegment htaken] at hs
          exact (List.prefix_append _ _).trans hs
      have hopens := (DelimiterSet.opensRegion_iff.mpr ⟨hescape, ho⟩).shorten hlonger hopening
      obtain ⟨rest, rfl⟩ := hopening
      rw [DelimiterSet.segmentAt?_of_opensRegion hopens] at hfound
      obtain ⟨other, hother, rfl⟩ := Outcome.map_eq_ok_iff.mp hfound
      rw [List.append_assoc, List.drop_left] at htaken
      unfold regionAfter at hother htaken
      split at hother
      next => cases hother
      next body hbody =>
        rw [bodyBefore_append hbody] at htaken
        exact congrArg some (Except.ok.inj (hother.symm.trans htaken))
    next => cases h

/-- What stands in front of a directive or a tag is cut alike on its own, if it is cut at all. -/
theorem segmentsFrom_front (hs : ∀ u, s ≠ .text u) {a b : Text} {front : List Segment}
    (h : segmentsFrom ds.openers skip line (a ++ b) = .ok (ss ++ s :: ts))
    (hsource : source ss = a.drop skip)
    (hfront : segmentsFrom ds.openers skip line a = .ok front) : front = ss := by
  induction a generalizing skip line ss front with
  | nil =>
    have hempty : ss = [] := by
      rw [List.drop_nil] at hsource
      cases ss with
      | nil => rfl
      | cons x xs =>
        have hx := raw_ne_nil_of_segmentsFrom h x List.mem_cons_self
        exact absurd (List.append_eq_nil_iff.mp hsource).1 hx
    rw [hempty]
    cases skip <;> (cases hfront; rfl)
  | cons c cs ih =>
    cases skip with
    | succ skip => exact ih h hsource hfront
    | zero =>
      rw [List.drop_zero] at hsource
      rw [List.cons_append, segmentsFrom] at h
      rw [segmentsFrom] at hfront
      split at h
      next => cases h
      next first hfirst =>
        obtain ⟨rest, hrest, hsplit⟩ := Outcome.map_eq_ok_iff.mp h
        rcases List.cons_eq_append_iff.mp hsplit with ⟨rfl, -⟩ | ⟨xs, rfl, rfl⟩
        · cases hsource
        · rw [source_cons] at hsource
          have hraw : first.raw <+: c :: cs := ⟨source xs, hsource⟩
          split at hfront
          next => cases hfront
          next found hfound =>
            obtain rfl := Option.some.inj (segmentAt?_within hfirst hraw hfound)
            obtain ⟨rear, hrear, rfl⟩ := Outcome.map_eq_ok_iff.mp hfront
            have hne := raw_ne_nil_of_segmentAt? (fun _ => DelimiterSet.opening_ne_nil) hfirst
            obtain ⟨d, r, hcut⟩ := List.exists_cons_of_ne_nil hne
            have hcs : source xs = cs.drop (found.raw.length - 1) := by
              rw [hcut] at hsource ⊢
              have hrest : r ++ source xs = cs := (List.cons.inj hsource).2
              rw [List.length_cons, Nat.add_sub_cancel, ← hrest, List.drop_left]
            rw [ih hrest hcs hrear]
          next hfound => cases segmentAt?_within hfirst hraw hfound
      next hnone =>
        obtain ⟨rest, hrest, hsplit⟩ := Outcome.map_eq_ok_iff.mp h
        obtain ⟨xs, rfl, rfl⟩ := exists_of_consText_eq_append hs hsplit
        have hplain := (DelimiterSet.isPlain_of_segmentAt? hnone).shorten
          (List.prefix_append (c :: cs) b)
        rw [DelimiterSet.segmentAt?_of_isPlain hplain] at hfront
        obtain ⟨rear, hrear, rfl⟩ := Outcome.map_eq_ok_iff.mp hfront
        rw [source_consText] at hsource
        rw [ih hrest (List.cons.inj hsource).2 hrear]

theorem separated_prependText {u : Text} (hu : u ≠ []) (h : Separated ss) :
    Separated (prependText u ss) := by
  unfold prependText
  split
  next v ss => exact ⟨fun hnil => hu (List.append_eq_nil_iff.mp hnil).1, h.2⟩
  next hss => exact ⟨hu, fun v vs => hss v vs, h⟩

theorem separated_joinTexts (hne : ∀ s ∈ ss, s.raw ≠ []) : Separated (joinTexts ss) := by
  induction ss using joinTexts.induct with
  | case1 => trivial
  | case2 u ss ih =>
    obtain ⟨hu, hss⟩ := List.forall_mem_cons.mp hne
    exact separated_prependText hu (ih hss)
  | case3 s ss hs ih =>
    rw [joinTexts_of_ne_text hs]
    exact (separated_cons hs).mpr (ih (List.forall_mem_cons.mp hne).2)

namespace Segment

variable {line offset : Nat} {s t : Segment}

/-- A passage tells how many tokens stand for it. -/
theorem length_tokens_of_passage (h : s.passage line offset = t.passage line offset) :
    (s.tokens line offset).length = (t.tokens line offset).length := by
  cases s with
  | text u => rw [eq_text_of_passage h.symm]
  | escapedOpening opening => cases t <;> first | rfl | cases h
  | tag kind opening body closing => cases t <;> first | rfl | cases h
  | directive opening lead name argument closing =>
    cases t with
    | directive opening' lead' name' argument' closing' =>
      have hexpression := (Passage.directive.inj h).2.1
      simp only [tokens, hexpression, List.length_cons, List.length_append]
      cases expression? argument' <;> rfl
    | _ => cases h

/-- A segment is told by its tokens and its passage. -/
theorem eq_of_passage (h : s.passage line offset = t.passage line offset)
    (htokens : s.tokens line offset = t.tokens line offset) : s = t := by
  have hraw : s.raw = t.raw := by
    rw [← raw_passage s line offset, h, raw_passage]
  cases s with
  | text u => exact (eq_text_of_passage h.symm).symm
  | escapedOpening opening =>
    cases t with
    | escapedOpening opening' => cases h; rfl
    | _ => cases h
  | tag kind opening body closing =>
    cases t with
    | tag kind' opening' body' closing' =>
      obtain rfl := (Passage.tag.inj h).1
      simp only [tokens, List.cons.injEq, Token.mk.injEq] at htokens
      obtain ⟨⟨-, rfl, -⟩, -, ⟨-, rfl, -⟩, -⟩ := htokens
      obtain rfl := List.append_cancel_right (List.append_cancel_left hraw)
      rfl
    | _ => cases h
  | directive opening lead name argument closing =>
    cases t with
    | directive opening' lead' name' argument' closing' =>
      obtain ⟨rfl, hexpression, -⟩ := Passage.directive.inj h
      simp only [tokens, hexpression, List.cons.injEq, Token.mk.injEq] at htokens
      obtain ⟨⟨-, rfl, -⟩, ⟨-, -, -, hname, -⟩, htail⟩ := htokens
      have hlead : lead.byteSize = lead'.byteSize := by omega
      obtain ⟨rfl, hrest⟩ :=
        Text.append_inj_of_byteSize (List.append_cancel_left hraw) hlead
      have hclosing := List.append_inj_right' htail rfl
      simp only [List.cons.injEq, Token.mk.injEq] at hclosing
      obtain ⟨⟨-, rfl, -⟩, -⟩ := hclosing
      obtain rfl := List.append_cancel_right (List.append_cancel_left hrest)
      rfl
    | _ => cases h

end Segment

/-- Segments are told by their tokens and their passages. -/
theorem eq_of_passagesOf {line offset : Nat}
    (h : passagesOf line offset ss = passagesOf line offset ts)
    (htokens : tokensFrom line offset ss = tokensFrom line offset ts) : ss = ts := by
  induction ss generalizing ts line offset with
  | nil =>
    cases ts with
    | nil => rfl
    | cons t ts => cases h
  | cons s ss ih =>
    cases ts with
    | nil => cases h
    | cons t ts =>
      obtain ⟨hpassage, hrest⟩ := List.cons.inj h
      obtain ⟨hhead, htail⟩ :=
        List.append_inj htokens (Segment.length_tokens_of_passage hpassage)
      obtain rfl := Segment.eq_of_passage hpassage hhead
      rw [ih hrest htail]

/-- The tokens of a text tell its segments. -/
theorem segments_eq_joinTexts (htokens : tokenize ds (source ss) = .ok (tokensFrom 1 0 ss))
    (hne : ∀ s ∈ ss, s.raw ≠ []) : segments ds (source ss) = .ok (joinTexts ss) := by
  obtain ⟨ts, hts, hread⟩ := Outcome.map_eq_ok_iff.mp htokens
  rw [hts]
  have hseparated := separated_joinTexts hne
  have hwhole : source ss = ([] ++ []) ++ source (joinTexts ss) := (source_joinTexts ss).symm
  have hpassages := passagesFrom_tokensFrom hseparated (fun h => absurd rfl h) hwhole
  have hmarked := passages?_of_segments hts
  rw [← tokensFrom_joinTexts ss] at hread
  rw [passages?, hread] at hmarked
  have hsame := Option.some.inj (hmarked.symm.trans hpassages)
  rw [eq_of_passagesOf hsame hread]

end Stencil
