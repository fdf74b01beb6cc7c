/- A text behind another one is cut as it is alone, unless the first runs into it. -/
import Mathlib.Data.List.Find
import Stencil.Proofs.Segment.Passages
import Stencil.Proofs.Segment.Seams

namespace Stencil

/-- The error of a text that stands further down. -/
def LexError.moved (lines : Nat) (e : LexError) : LexError :=
  { e with line := e.line + lines, openedAt := e.openedAt.map (· + lines) }

/-- The state in a text that stands further down. -/
def BodyState.moved (lines : Nat) : BodyState → BodyState
  | .code => .code
  | .quoted quote opened => .quoted quote (opened + lines)
  | .escaped quote opened => .escaped quote (opened + lines)

def Unclosed.moved (lines : Nat) : Unclosed → Unclosed
  | .region line => .region (line + lines)
  | .string line opened quote => .string (line + lines) (opened + lines) quote

namespace Outcome

theorem map_map {ε α β γ : Type} (r : Except ε α) (f : α → β) (g : β → γ) :
    (r.map f).map g = r.map fun a => g (f a) := by
  cases r <;> rfl

theorem mapError_map {ε δ α β : Type} (r : Except ε α) (f : α → β) (g : ε → δ) :
    (r.map f).mapError g = (r.mapError g).map f := by
  cases r <;> rfl

end Outcome

section Moved

variable {os : List Opener} (lines : Nat)

theorem Text.lineAfter_add (line : Nat) (c : Char) :
    Text.lineAfter (line + lines) c = Text.lineAfter line c + lines := by
  rw [Text.lineAfter_eq, Text.lineAfter_eq, Nat.add_right_comm]

theorem BodyState.next_moved (line : Nat) (c : Char) (state : BodyState) :
    (state.moved lines).next (line + lines) c = (state.next line c).moved lines := by
  cases state with
  | code =>
    simp only [BodyState.moved, BodyState.next]
    split <;> rfl
  | quoted quote opened =>
    simp only [BodyState.moved, BodyState.next]
    split
    next => rfl
    next => split <;> rfl
  | escaped quote opened => rfl

theorem BodyState.moved_eq_code_iff {state : BodyState} :
    state.moved lines = .code ↔ state = .code := by
  cases state <;> simp [BodyState.moved]

theorem bodyBefore_moved (closing : Text) (state : BodyState) (line : Nat) (t : Text) :
    bodyBefore closing (state.moved lines) (line + lines) t =
      (bodyBefore closing state line t).mapError (Unclosed.moved lines) := by
  induction t generalizing state line with
  | nil => cases state <;> rfl
  | cons c cs ih =>
    simp only [bodyBefore, BodyState.moved_eq_code_iff]
    split
    next => rfl
    next => rw [BodyState.next_moved, Text.lineAfter_add, ih, Outcome.mapError_map]

theorem Unclosed.error_moved (kind : RegionKind) (openedAt : Nat) (closing : Text)
    (u : Unclosed) :
    (u.moved lines).error kind (openedAt + lines) closing =
      (u.error kind openedAt closing).moved lines := by
  cases u <;> rfl

theorem regionSegment_moved (o : Opener) (line : Nat) (body : Text) :
    regionSegment o (line + lines) body =
      (regionSegment o line body).mapError (LexError.moved lines) := by
  unfold regionSegment
  split
  next => rfl
  next =>
    dsimp only
    split <;> rfl

theorem regionAfter_moved (o : Opener) (line : Nat) (rest : Text) :
    regionAfter o (line + lines) rest =
      (regionAfter o line rest).mapError (LexError.moved lines) := by
  rw [regionAfter, regionAfter, Nat.add_right_comm,
    show bodyBefore o.closing .code (line + o.opening.newlines + lines) rest = _ from
      bodyBefore_moved lines o.closing .code (line + o.opening.newlines) rest]
  cases bodyBefore o.closing .code (line + o.opening.newlines) rest with
  | error u => exact congrArg Except.error (u.error_moved lines o.kind line o.closing)
  | ok body => exact regionSegment_moved lines o line body

theorem segmentAt?_moved (line : Nat) (t : Text) :
    segmentAt? os (line + lines) t =
      (segmentAt? os line t).mapError (LexError.moved lines) := by
  unfold segmentAt?
  split
  next => rfl
  next =>
    split
    next => rw [regionAfter_moved, Outcome.mapError_map]
    next => rfl

/-- A text that stands further down has the same segments, or its error is further down. -/
theorem segmentsFrom_moved (skip line : Nat) (t : Text) :
    segmentsFrom os skip (line + lines) t =
      (segmentsFrom os skip line t).mapError (LexError.moved lines) := by
  induction t generalizing skip line with
  | nil => cases skip <;> rfl
  | cons c cs ih =>
    cases skip with
    | succ skip =>
      rw [segmentsFrom, segmentsFrom, Text.lineAfter_add, ih]
    | zero =>
      rw [segmentsFrom, segmentsFrom, segmentAt?_moved]
      cases segmentAt? os line (c :: cs) with
      | error e => rfl
      | ok found =>
        cases found with
        | none =>
          show (segmentsFrom os 0 _ cs).map _ = _
          rw [Text.lineAfter_add, ih, Outcome.mapError_map]
        | some s =>
          show (segmentsFrom os _ _ cs).map _ = _
          rw [Text.lineAfter_add, ih, Outcome.mapError_map]

end Moved

theorem bodyBefore_append {closing : Text} {state : BodyState} {line : Nat} {t body : Text}
    (h : bodyBefore closing state line t = .ok body) (u : Text) :
    bodyBefore closing state line (t ++ u) = .ok body := by
  induction t generalizing state line body with
  | nil => cases h
  | cons c cs ih =>
    rw [bodyBefore] at h
    rw [List.cons_append, bodyBefore]
    split at h
    next hc =>
      cases h
      obtain ⟨hstate, hcloses⟩ := hc
      have hlonger := (List.isPrefixOf_iff_prefix.mp hcloses).trans (List.prefix_append (c :: cs) u)
      exact if_pos ⟨hstate, List.isPrefixOf_iff_prefix.mpr hlonger⟩
    next hc =>
      obtain ⟨rest, hrest, rfl⟩ := Outcome.map_eq_ok_iff.mp h
      -- The closing that was found ends in the text, so one that starts ahead of it does too.
      have hfits := (bodyBefore_append_closing hrest).length_le
      rw [List.length_append] at hfits
      rw [if_neg, ih hrest]
      · rfl
      · rintro ⟨hstate, hcloses⟩
        have hwithin : closing <+: c :: cs := by
          refine List.prefix_of_prefix_length_le (List.isPrefixOf_iff_prefix.mp hcloses)
            (List.prefix_append (c :: cs) u) ?_
          rw [List.length_cons]
          omega
        exact hc ⟨hstate, List.isPrefixOf_iff_prefix.mpr hwithin⟩

namespace DelimiterSet

variable {ds : DelimiterSet} {line : Nat} {a b v : Text}

/-- What begins here ends here as well, whatever text is put behind. -/
def Contains (ds : DelimiterSet) (v b : Text) : Prop :=
  ∀ w, ds.Begins w → w <+: v ++ b → w <+: v

theorem contains_of_not_straddles (h : ¬ ds.Straddles b (.text a)) {u : Text} (ha : a = u ++ v)
    (hv : v ≠ []) : ds.Contains v b := by
  intro w hw hwb
  exact Classical.byContradiction fun hout => h ⟨u, v, w, ha, hv, hw, hwb, hout⟩

theorem offers_of_mem_openers {o : Opener} (ho : o ∈ ds.openers) :
    ds.Offers o o.opening := by
  obtain ⟨hset, hne⟩ := mem_openers.mp ho
  exact ⟨hset, hne, List.prefix_rfl⟩

theorem Contains.matchOpener? (h : ds.Contains v b) :
    Stencil.matchOpener? ds.openers (v ++ b) = Stencil.matchOpener? ds.openers v := by
  refine List.find?_congr fun o ho => ?_
  rw [Bool.eq_iff_iff, List.isPrefixOf_iff_prefix, List.isPrefixOf_iff_prefix]
  exact ⟨h _ (offers_of_mem_openers ho).begins, fun hv => hv.trans (List.prefix_append v b)⟩

theorem Contains.escapedOpening? (h : ds.Contains v b) (hv : v ≠ []) :
    Stencil.escapedOpening? ds.openers (v ++ b) = Stencil.escapedOpening? ds.openers v := by
  obtain ⟨c, r, rfl⟩ := List.exists_cons_of_ne_nil hv
  by_cases hc : c = '\\'
  · subst hc
    refine List.find?_congr fun o ho => ?_
    obtain ⟨hmem, hkind⟩ := List.mem_filter.mp ho
    have hbegins := (offers_of_mem_openers hmem).begins_escaped hkind
    rw [Bool.eq_iff_iff, List.isPrefixOf_iff_prefix, List.isPrefixOf_iff_prefix]
    constructor
    · intro hr
      exact (List.cons_prefix_cons.mp (h _ hbegins (List.cons_prefix_cons.mpr ⟨rfl, hr⟩))).2
    · exact fun hr => hr.trans (List.prefix_append r b)
  · rw [List.cons_append, Stencil.escapedOpening?.eq_def, Stencil.escapedOpening?.eq_def]
    simp [hc]

/-- What is cut off a text, or that it starts with text, does not change with the text behind it. -/
theorem Contains.segmentAt? (h : ds.Contains v b) (hv : v ≠ []) {found : Option Segment}
    (hfound : Stencil.segmentAt? ds.openers line v = .ok found) :
    Stencil.segmentAt? ds.openers line (v ++ b) = .ok found := by
  unfold Stencil.segmentAt? at hfound ⊢
  rw [h.escapedOpening? hv, h.matchOpener?]
  split at hfound
  next => exact hfound
  next =>
    split at hfound
    next o ho =>
      obtain ⟨s, hs, rfl⟩ := Outcome.map_eq_ok_iff.mp hfound
      have hlength := (isPrefixOf_of_matchOpener? ho).length_le
      rw [List.drop_append_of_le_length hlength]
      unfold regionAfter at hs ⊢
      split at hs
      next => cases hs
      next body hbody =>
        rw [bodyBefore_append hbody]
        dsimp only
        rw [hs]
        rfl
    next => exact hfound

end DelimiterSet

theorem joinTexts_of_separated {ss : List Segment} (h : Separated ss) : joinTexts ss = ss := by
  induction ss with
  | nil => rfl
  | cons s ss ih =>
    cases s with
    | text t =>
      rw [joinTexts, ih h.tail, prependText.eq_def]
      split
      next u us => exact absurd rfl (h.2.1 u us)
      next => rfl
    | escapedOpening opening => exact congrArg (_ :: ·) (ih h.tail)
    | directive opening lead name argument closing => exact congrArg (_ :: ·) (ih h.tail)
    | tag kind opening body closing => exact congrArg (_ :: ·) (ih h.tail)

theorem consText_prependText (c : Char) (t : Text) (ss : List Segment) :
    consText c (prependText t ss) = prependText (c :: t) ss := by
  unfold prependText
  split <;> rfl

theorem joinTexts_consText_append (c : Char) (ss ts : List Segment) :
    joinTexts (consText c ss ++ ts) = consText c (joinTexts (ss ++ ts)) := by
  unfold consText
  split
  next t ss => exact (consText_prependText c t _).symm
  next => rfl

theorem tokensFrom_prependText (t : Text) (ss : List Segment) (line offset : Nat) :
    tokensFrom line offset (prependText t ss) =
      tokensFrom (line + t.newlines) (offset + t.byteSize) ss := by
  unfold prependText
  split
  next u ss =>
    simp only [tokensFrom, Segment.tokens, Segment.raw, List.nil_append, Text.newlines_append,
      Text.byteSize_append, Nat.add_assoc]
  next => rfl

/-- Tokens do not tell how text is divided. -/
theorem tokensFrom_joinTexts (ss : List Segment) (line offset : Nat) :
    tokensFrom line offset (joinTexts ss) = tokensFrom line offset ss := by
  induction ss using joinTexts.induct generalizing line offset with
  | case1 => rfl
  | case2 t ss ih =>
    rw [joinTexts, tokensFrom_prependText, ih]
    rfl
  | case3 s ss hs ih => rw [joinTexts_of_ne_text hs, tokensFrom, tokensFrom, ih]

namespace DelimiterSet

variable {ds : DelimiterSet} {line : Nat} {a b : Text}

theorem not_straddles_of_cons {c : Char} (h : ¬ ds.Straddles b (.text (c :: a))) :
    ¬ ds.Straddles b (.text a) := by
  rintro ⟨u, v, w, rfl, hv, hw, hwb, hout⟩
  exact h ⟨c :: u, v, w, rfl, hv, hw, hwb, hout⟩

/-- A text that does not run into the next one is cut as it is alone, and so is the next one. -/
theorem segmentsFrom_concat (hseam : ¬ ds.Straddles b (.text a)) {skip : Nat}
    (hskip : skip ≤ a.length) {ss : List Segment}
    (h : segmentsFrom ds.openers skip line a = .ok ss) :
    segmentsFrom ds.openers skip line (a ++ b) =
      (segmentsFrom ds.openers 0 (line + a.newlines) b).map fun ts => joinTexts (ss ++ ts) := by
  induction a generalizing skip line ss with
  | nil =>
    obtain rfl := Nat.le_zero.mp hskip
    cases h
    rw [List.nil_append, Text.newlines_nil, Nat.add_zero]
    cases hb : segmentsFrom ds.openers 0 line b with
    | error e => rfl
    | ok ts => exact congrArg Except.ok (joinTexts_of_separated (separated_of_segmentsFrom hb)).symm
  | cons c cs ih =>
    have hrest := not_straddles_of_cons hseam
    have hline : line + Text.newlines (c :: cs) = Text.lineAfter line c + Text.newlines cs := by
      rw [Text.lineAfter_eq, Text.newlines_cons, Nat.add_assoc]
    cases skip with
    | succ skip =>
      rw [List.cons_append, segmentsFrom, hline]
      exact ih hrest (Nat.le_of_succ_le_succ hskip) h
    | zero =>
      have hcontains := contains_of_not_straddles hseam (List.nil_append _).symm
        (List.cons_ne_nil c cs)
      rw [segmentsFrom] at h
      rw [hline]
      split at h
      next => cases h
      next s hs =>
        obtain ⟨rest, htail, rfl⟩ := Outcome.map_eq_ok_iff.mp h
        have hfound := hcontains.segmentAt? (List.cons_ne_nil c cs) hs
        have hfits : s.raw.length - 1 ≤ cs.length :=
          Nat.sub_le_of_le_add (raw_of_segmentAt? hs).length_le
        have hne : ∀ t, s ≠ .text t := by
          rintro t rfl
          exact segmentAt?_ne_text hs
        rw [List.cons_append] at hfound ⊢
        rw [segmentsFrom, hfound]
        dsimp only
        rw [ih hrest hfits htail, Outcome.map_map]
        simp only [List.cons_append, joinTexts_of_ne_text hne]
      next hnone =>
        obtain ⟨rest, htail, rfl⟩ := Outcome.map_eq_ok_iff.mp h
        have hfound := hcontains.segmentAt? (List.cons_ne_nil c cs) hnone
        rw [List.cons_append] at hfound ⊢
        rw [segmentsFrom, hfound]
        dsimp only
        rw [ih hrest (Nat.zero_le _) htail, Outcome.map_map]
        simp only [joinTexts_consText_append]

end DelimiterSet

/-- Cutting goes piece by piece: behind a text that can be cut and does not run into it, a text has
the tokens that it has alone, further down and further on; or its error, further down. -/
theorem tokenize_append {ds : DelimiterSet} {a b : Text} {front : List Token}
    (ha : tokenize ds a = .ok front) (hseam : ¬ ds.Straddles b (.text a)) :
    (∀ rear, tokenize ds b = .ok rear → tokenize ds (a ++ b) =
        .ok (front ++ rear.map (Token.moved a.newlines a.byteSize))) ∧
      ∀ e, tokenize ds b = .error e → tokenize ds (a ++ b) = .error (e.moved a.newlines) := by
  obtain ⟨ss, hss, rfl⟩ := Outcome.map_eq_ok_iff.mp ha
  have hcut : segments ds (a ++ b) = ((segments ds b).mapError (LexError.moved a.newlines)).map
      fun ts => joinTexts (ss ++ ts) := by
    rw [segments, DelimiterSet.segmentsFrom_concat hseam (Nat.zero_le _) hss, segmentsFrom_moved]
    rfl
  constructor
  · intro rear hrear
    obtain ⟨ts, hts, rfl⟩ := Outcome.map_eq_ok_iff.mp hrear
    have hsource := source_segments hss
    rw [tokenize, hcut, hts]
    show Except.ok (tokensFrom 1 0 (joinTexts (ss ++ ts))) = _
    rw [tokensFrom_joinTexts, tokensFrom_append, hsource, tokensFrom_moved]
  · intro e he
    rw [tokenize, hcut, Outcome.map_eq_error_iff.mp he]
    rfl

/-- No opening has a character that the text ends in. -/
theorem DelimiterSet.not_straddles_of_last {ds : DelimiterSet} {c : Char}
    (hc : ∀ w, ds.Begins w → c ∉ w) (a b : Text) : ¬ ds.Straddles b (.text (a ++ [c])) := by
  rintro ⟨u, v, w, hsplit, hv, hw, hwb, hout⟩
  have hvw : v <+: w :=
    (List.prefix_or_prefix_of_prefix hwb (List.prefix_append v b)).resolve_left hout
  have hlast : v.getLast hv = c := by
    have hends := congrArg List.getLast? hsplit
    rw [List.getLast?_concat, List.getLast?_append, List.getLast?_eq_some_getLast hv,
      Option.some_or] at hends
    exact (Option.some.inj hends).symm
  exact hc w hw (hvw.subset (hlast ▸ List.getLast_mem hv))

theorem DelimiterSet.not_mem_of_begins_usual {w : Text} (hw : ({} : DelimiterSet).Begins w) :
    '\x7d' ∉ w := by
  obtain ⟨⟨kind, opening, closing⟩, ⟨hset, -, -⟩, hw⟩ := hw
  rcases kind with _ | _ | _ <;> cases hset <;> rcases hw with rfl | ⟨-, rfl⟩ <;> decide

/-- Half a closing behind an escaped opening stays text in front of the other half. What follows
that stands one line further down, as does the string that is never closed. -/
theorem tokenize_append_halves :
    let a := "x\n\\\x7b\x7b \x7d".toList
    let b := "\x7d<% show('%>') %>".toList
    let unclosed := "\x7d\x7b\x7b 'y".toList
    ∃ front rear, tokenize {} a = .ok front ∧ ¬ ({} : DelimiterSet).Straddles b (.text a) ∧
      ¬ ({} : DelimiterSet).Straddles unclosed (.text a) ∧ tokenize {} b = .ok rear ∧
      tokenize {} (a ++ b) = .ok (front ++ rear.map (Token.moved 1 7)) ∧
      tokenize {} unclosed = .error (.unterminatedString 1 1 '\'') ∧
      tokenize {} (a ++ unclosed) = .error (.unterminatedString 2 2 '\'') := by
  intro a b unclosed
  have hseam : ∀ rest, ¬ ({} : DelimiterSet).Straddles rest (.text a) :=
    DelimiterSet.not_straddles_of_last (fun _ => DelimiterSet.not_mem_of_begins_usual)
      "x\n\\\x7b\x7b ".toList
  have hfront : tokenize {} a = .ok _ := rfl
  have hrear : tokenize {} b = .ok _ := rfl
  have herror : tokenize {} unclosed = .error (.unterminatedString 1 1 '\'') := rfl
  exact ⟨_, _, hfront, hseam b, hseam unclosed, hrear,
    (tokenize_append hfront (hseam b)).1 _ hrear, herror,
    (tokenize_append hfront (hseam unclosed)).2 _ herror⟩

end Stencil
