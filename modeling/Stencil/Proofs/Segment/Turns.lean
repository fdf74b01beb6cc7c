/- The loop of the lexer, turn by turn: what is left to do shrinks, and what the lexer returns in
the end stays the same. -/
import Stencil.Proofs.Segment.Advances

namespace Stencil

theorem tokensFrom_consText (c : Char) (ss : List Segment) (line offset : Nat) :
    tokensFrom line offset (consText c ss) =
      tokensFrom (Text.lineAfter line c) (offset + c.utf8Size) ss := by
  rw [Text.lineAfter_eq]
  unfold consText
  split
  next u us =>
    rw [tokensFrom, tokensFrom, Segment.raw, Segment.raw, Text.newlines_cons c u,
      Text.byteSize_cons, ← Nat.add_assoc, ← Nat.add_assoc]
    rfl
  next => rfl

namespace Scan

/-- Twice the bytes that are left, and one for each mode that was entered. A region is entered
behind an opening, so that it can be left where nothing is read. -/
def potential (t : Text) (s : Scan) : Nat := 2 * (t.byteSize - s.offset) + (s.modes.length - 1)

/-- What the lexer returns that has read some tokens and stands in front of the rest. -/
def resultFrom (ds : DelimiterSet) (tokens : List Token) (line offset : Nat) (rest : Text) :
    Except LexError (List Token) :=
  (segmentsFrom ds.openers 0 line rest).map fun ss => tokens ++ tokensFrom line offset ss

/-- A region that was opened: where, by what, and after which tokens. -/
structure Opened where
  opener : Opener
  line : Nat
  offset : Nat
  tokens : List Token

/-- The scan stands in a region. Of the text from its opening on, `rest` is left, and the region
closes in it where it closes in the whole. -/
structure Inside (ds : DelimiterSet) (t : Text) (result : Except LexError (List Token))
    (r : Opened) (state : BodyState) (body rest : Text) (s : Scan) : Prop where
  opens : ds.OpensRegion r.opener (r.opener.opening ++ (body ++ rest))
  whole : t.slice? r.offset t.byteSize = some (r.opener.opening ++ (body ++ rest))
  closes : bodyBefore r.opener.closing .code (r.line + r.opener.opening.newlines) (body ++ rest) =
    (bodyBefore r.opener.closing state s.line rest).map (body ++ ·)
  offset_eq : s.offset = r.offset + r.opener.opening.byteSize + body.byteSize
  line_eq : s.line = r.line + (r.opener.opening ++ body).newlines
  region_eq : s.region =
    some ⟨r.opener.kind, r.opener.closing, r.offset + r.opener.opening.byteSize, r.line⟩
  tokens_eq : s.tokens = r.tokens ++ [r.opener.openingToken r.line r.offset]
  result_eq : result = resultFrom ds r.tokens r.line r.offset (r.opener.opening ++ (body ++ rest))

/-- The result is what the lexer has to return from where the scan stands. -/
inductive Awaits (ds : DelimiterSet) (t : Text) (result : Except LexError (List Token))
    (s : Scan) : Prop where
  | text (rest : Text) (modes : s.modes = [.text]) (left : s.rest? t = some rest)
      (result_eq : result = resultFrom ds s.tokens s.line s.offset rest)
  | region (r : Opened) (body rest : Text) (modes : s.modes = [.region, .text])
      (inside : Inside ds t result r .code body rest s)
  | string (quote : Char) (r : Opened) (body rest : Text)
      (modes : s.modes = [.string quote, .region, .text])
      (inside : Inside ds t result r (.quoted quote s.stringLine) body rest s)

/-- What a turn should come to. -/
def Proceeds (ds : DelimiterSet) (t : Text) (result : Except LexError (List Token)) (s : Scan) :
    Option (Except LexError Scan) → Prop
  | none => False
  | some (.error e) => result = .error e
  | some (.ok next) => Awaits ds t result next ∧ next.potential t < s.potential t

variable {ds : DelimiterSet} {t : Text} {result : Except LexError (List Token)} {s : Scan}

section Modes

variable {ms : List ScanMode} (os : List Opener) (t : Text)

theorem turn?_text (h : s.modes = .text :: ms) : s.turn? os t = (s.atText? os t).map .ok := by
  rw [turn?, mode, h]
  rfl

theorem turn?_region (h : s.modes = .region :: ms) : s.turn? os t = s.atRegion? t := by
  rw [turn?, mode, h]
  rfl

theorem turn?_string {quote : Char} (h : s.modes = .string quote :: ms) :
    s.turn? os t = (s.atString? t quote).map .ok := by
  rw [turn?, mode, h]
  rfl

end Modes

theorem leave_eq {m n : ScanMode} {ms : List ScanMode} (h : s.modes = m :: n :: ms) :
    s.leave = { s with modes := n :: ms } := by
  rw [leave, if_pos (by rw [h]; exact Nat.lt_add_of_pos_left (Nat.succ_pos _)), h]
  rfl

/-- A region is left with what was read up to there. -/
theorem awaits_leave {rest : Text} (hmodes : s.modes = [.region, .text])
    (hrest : s.rest? t = some rest)
    (hresult : result = resultFrom ds s.tokens s.line s.offset rest) :
    Awaits ds t result s.leave := by
  rw [leave_eq hmodes]
  exact .text rest rfl hrest hresult

theorem potential_leave_lt {next : Scan} (hmodes : next.modes = [.region, .text])
    (hoffset : s.offset ≤ next.offset) (hs : s.modes.length = next.modes.length) :
    next.leave.potential t < s.potential t := by
  rw [hmodes] at hs
  rw [leave_eq hmodes, potential, potential, hs]
  simp only [List.length_cons, List.length_nil]
  omega

theorem potential_lt {next : Scan} (hlt : s.offset < t.byteSize) (hoffset : s.offset < next.offset)
    (hmodes : next.modes.length ≤ s.modes.length + 1) : next.potential t < s.potential t := by
  unfold potential
  omega

section Results

variable {tokens : List Token} {line offset : Nat}

theorem resultFrom_segment {raw after : Text} {segment : Segment} (hraw : segment.raw = raw)
    (hne : raw ≠ []) (h : segmentAt? ds.openers line (raw ++ after) = .ok (some segment)) :
    resultFrom ds tokens line offset (raw ++ after) =
      resultFrom ds (tokens ++ segment.tokens line offset) (line + raw.newlines)
        (offset + raw.byteSize) after := by
  rw [resultFrom, DelimiterSet.segmentsFrom_of_segmentAt? hraw hne h, resultFrom]
  subst hraw
  cases segmentsFrom ds.openers 0 (line + segment.raw.newlines) after with
  | error e => rfl
  | ok ss =>
    rw [Except.map, Except.map, Except.map, tokensFrom, List.append_assoc]

theorem resultFrom_plain {c : Char} {cs : Text} (h : ds.IsPlain (c :: cs)) :
    resultFrom ds tokens line offset (c :: cs) =
      resultFrom ds tokens (Text.lineAfter line c) (offset + c.utf8Size) cs := by
  rw [resultFrom, DelimiterSet.segmentsFrom_of_isPlain h, resultFrom]
  cases segmentsFrom ds.openers 0 (Text.lineAfter line c) cs with
  | error e => rfl
  | ok ss => rw [Except.map, Except.map, Except.map, tokensFrom_consText]

theorem resultFrom_error {rest : Text} (hne : rest ≠ []) {e : LexError}
    (h : segmentAt? ds.openers line rest = .error e) :
    resultFrom ds tokens line offset rest = .error e := by
  obtain ⟨c, cs, rfl⟩ := List.exists_cons_of_ne_nil hne
  rw [resultFrom, segmentsFrom, h]
  rfl

end Results

/-- A turn outside of regions takes an opening, with a backslash or not, or a character. -/
theorem proceeds_text {rest : Text} (hmodes : s.modes = [.text]) (hrest : s.rest? t = some rest)
    (hresult : result = resultFrom ds s.tokens s.line s.offset rest)
    (hlt : s.offset < t.byteSize) : Proceeds ds t result s (s.turn? ds.openers t) := by
  rw [turn?_text _ _ hmodes, atText?, hrest, Option.bind_some]
  cases hescape : escapedOpening? ds.openers rest with
  | some o =>
    obtain ⟨tail, rfl, hopens⟩ := DelimiterSet.escapes_iff.mp hescape
    obtain ⟨after, rfl⟩ := hopens.starts
    have hpos := Text.byteSize_pos (List.cons_ne_nil '\\' o.opening)
    have hadvance := advanceBytes?_append (u := '\\' :: o.opening) hrest
    rw [Text.byteSize_cons, show '\\'.utf8Size = 1 from rfl] at hadvance
    dsimp only
    rw [hadvance]
    refine ⟨.text after hmodes (rest?_passText hrest) ?_,
      potential_lt hlt (Nat.lt_add_of_pos_right hpos) (Nat.le_succ _)⟩
    have hraw : (Segment.escapedOpening o.opening).raw = '\\' :: o.opening := rfl
    have hsegment : segmentAt? ds.openers s.line ('\\' :: o.opening ++ after) =
        .ok (some (.escapedOpening o.opening)) := by
      rw [segmentAt?, List.cons_append, hescape]
    rw [hresult, ← List.cons_append, resultFrom_segment hraw (List.cons_ne_nil _ _) hsegment,
      Segment.tokens, Nat.add_assoc]
    rfl
  | none =>
    dsimp only
    cases hopening : matchOpener? ds.openers rest with
    | some o =>
      obtain ⟨after, rfl⟩ := isPrefixOf_of_matchOpener? hopening
      have hopens := DelimiterSet.opensRegion_iff.mpr ⟨hescape, hopening⟩
      have hpos := Text.byteSize_pos hopens.1.nonempty
      dsimp only
      rw [advanceBytes?_append hrest]
      refine ⟨.region ⟨o, s.line, s.offset, s.tokens⟩ [] after
        (congrArg (ScanMode.region :: ·) hmodes) ⟨hopens, hrest, ?_, rfl, ?_, rfl, rfl, hresult⟩,
        potential_lt hlt (Nat.lt_add_of_pos_right hpos) (Nat.le_refl _)⟩
      · exact (congrFun Except.map_id _).symm
      · rw [List.append_nil]
        rfl
    | none =>
      have hne := (ne_nil_of_rest? hrest).mp hlt
      obtain ⟨c, cs, rfl⟩ := List.exists_cons_of_ne_nil hne
      dsimp only
      rw [advanceChar?_cons hrest]
      refine ⟨.text cs hmodes (rest?_pass hrest) ?_,
        potential_lt hlt (Nat.lt_add_of_pos_right c.utf8Size_pos) (Nat.le_succ _)⟩
      rw [hresult, resultFrom_plain (DelimiterSet.isPlain_iff.mpr ⟨hescape, hopening⟩)]
      rfl

namespace Inside

variable {r : Opened} {state : BodyState} {body rest : Text} {c : Char}

theorem left (h : Inside ds t result r state body rest s) : s.rest? t = some rest := by
  have hwhole := h.whole
  rw [← List.append_assoc] at hwhole
  have hrest := (Text.slice?_append hwhole).2
  rw [Text.byteSize_append, ← Nat.add_assoc, ← h.offset_eq] at hrest
  exact hrest

theorem body_eq (h : Inside ds t result r state body rest s) :
    t.slice? (r.offset + r.opener.opening.byteSize) s.offset = some body := by
  rw [h.offset_eq]
  exact (Text.slice?_append (Text.slice?_append h.whole).2).1

/-- A character is read that does not start the closing. -/
theorem pass (h : Inside ds t result r state body (c :: rest) s)
    (hc : ¬ (state = .code ∧ r.opener.closing.isPrefixOf (c :: rest))) :
    Inside ds t result r (state.next s.line c) (body ++ [c]) rest (s.pass c) := by
  have hsplit : (body ++ [c]) ++ rest = body ++ c :: rest := by
    rw [List.append_assoc]
    rfl
  constructor
  · rw [hsplit]
    exact h.opens
  · rw [hsplit]
    exact h.whole
  · rw [hsplit, h.closes, bodyBefore, if_neg hc, Scan.pass]
    dsimp only
    cases bodyBefore r.opener.closing (state.next s.line c) (Text.lineAfter s.line c) rest with
    | error u => rfl
    | ok more => rw [Except.map, Except.map, Except.map, List.append_assoc]; rfl
  · rw [Text.byteSize_append, ← Nat.add_assoc, ← h.offset_eq]
    rfl
  · rw [← List.append_assoc, Text.newlines_append, ← Nat.add_assoc, ← h.line_eq]
    exact Text.lineAfter_eq s.line c
  · exact h.region_eq
  · exact h.tokens_eq
  · rw [hsplit]
    exact h.result_eq

/-- In a string all up to its quote or a backslash is read. -/
theorem pass_string {quote : Char} {opened : Nat} {p : Char → Bool}
    (hp : ∀ d, p d = true → d ≠ quote ∧ d ≠ '\\')
    (h : Inside ds t result r (.quoted quote opened) body rest s) :
    Inside ds t result r (.quoted quote opened) (body ++ rest.takeWhile p) (rest.dropWhile p)
      (s.passText (rest.takeWhile p)) := by
  induction rest generalizing body s with
  | nil =>
    rw [List.takeWhile_nil, List.append_nil]
    exact h
  | cons d rest ih =>
    rw [List.takeWhile_cons, List.dropWhile_cons]
    split
    next hd =>
      obtain ⟨hquote, hbackslash⟩ := hp d hd
      have hpass := h.pass nofun
      rw [BodyState.next, if_neg hbackslash, if_neg hquote, pass_eq_passText] at hpass
      have hnext := ih hpass
      rw [passText_passText, List.append_assoc] at hnext
      exact hnext
    next =>
      rw [List.append_nil]
      exact h

theorem result_of_error (h : Inside ds t result r state body rest s) {e : LexError}
    (he : regionAfter r.opener r.line (body ++ rest) = .error e) : result = .error e := by
  have hne := List.append_ne_nil_of_left_ne_nil h.opens.1.nonempty (body ++ rest)
  rw [h.result_eq]
  refine resultFrom_error hne ?_
  rw [DelimiterSet.segmentAt?_of_opensRegion h.opens, he]
  rfl

/-- The region ends where its closing stands. -/
theorem regionAfter_eq (h : Inside ds t result r .code body rest s) (hne : rest ≠ [])
    (hclosing : r.opener.closing.isPrefixOf rest) :
    regionAfter r.opener r.line (body ++ rest) = regionSegment r.opener r.line body := by
  obtain ⟨c, cs, rfl⟩ := List.exists_cons_of_ne_nil hne
  have hcloses := h.closes
  rw [bodyBefore, if_pos ⟨rfl, hclosing⟩, Except.map, List.append_nil] at hcloses
  rw [regionAfter, hcloses]

theorem result_of_segment {after : Text} {segment : Segment}
    (h : Inside ds t result r .code body (r.opener.closing ++ after) s)
    (hne : r.opener.closing ++ after ≠ [])
    (hsegment : regionSegment r.opener r.line body = .ok segment) :
    result = resultFrom ds
      (s.tokens ++ segment.bodyTokens r.line (r.offset + r.opener.opening.byteSize) ++
        [r.opener.closingToken s.line s.offset])
      (s.line + r.opener.closing.newlines) (s.offset + r.opener.closing.byteSize) after := by
  have hclosing := List.isPrefixOf_iff_prefix.mpr (List.prefix_append r.opener.closing after)
  have hraw := raw_of_regionSegment hsegment
  have hwhole : r.opener.opening ++ (body ++ (r.opener.closing ++ after)) =
      r.opener.opening ++ (body ++ r.opener.closing) ++ after := by
    simp only [List.append_assoc]
  have hopening := List.append_ne_nil_of_left_ne_nil h.opens.1.nonempty (body ++ r.opener.closing)
  have hat : segmentAt? ds.openers r.line _ = _ := DelimiterSet.segmentAt?_of_opensRegion h.opens
  rw [h.regionAfter_eq hne hclosing, hsegment, hwhole] at hat
  rw [h.result_eq, hwhole, resultFrom_segment hraw hopening hat, tokens_of_regionSegment hsegment,
    h.tokens_eq, h.line_eq, h.offset_eq]
  simp only [List.append_assoc, List.cons_append, List.nil_append, Text.newlines_append,
    Text.byteSize_append, Nat.add_assoc]

end Inside

/-- A turn in a region takes its closing, the quote that opens a string, or another character. -/
theorem proceeds_region {r : Opened} {body rest : Text} (hmodes : s.modes = [.region, .text])
    (h : Inside ds t result r .code body rest s) (hlt : s.offset < t.byteSize) :
    Proceeds ds t result s (s.turn? ds.openers t) := by
  have hne := (ne_nil_of_rest? h.left).mp hlt
  rw [turn?_region _ _ hmodes]
  unfold atRegion?
  split
  next hregion => cases h.region_eq.symm.trans hregion
  next region hregion =>
    cases h.region_eq.symm.trans hregion
    dsimp only
    rw [h.left, Option.bind_some]
    split
    next hclosing =>
      obtain ⟨after, rfl⟩ := List.isPrefixOf_iff_prefix.mp hclosing
      rw [advanceBytes?_append h.left, Option.bind_some, addBody?_eq h.body_eq, Option.map_some]
      cases hsegment : regionSegment r.opener r.line body with
      | error e => exact h.result_of_error ((h.regionAfter_eq hne hclosing).trans hsegment)
      | ok segment =>
        -- The closing may be empty, so that only the mode makes the potential smaller.
        exact ⟨awaits_leave hmodes (rest?_passText h.left) (h.result_of_segment hne hsegment),
          potential_leave_lt hmodes (Nat.le_add_right _ _) rfl⟩
    next hclosing =>
      obtain ⟨c, rest, rfl⟩ := List.exists_cons_of_ne_nil hne
      have hpass := h.pass fun hc => hclosing hc.2
      have hpos := Nat.lt_add_of_pos_right (n := s.offset) c.utf8Size_pos
      dsimp only
      split
      next hquote =>
        have hleft : rest? t { s with stringLine := s.line } = some (c :: rest) := h.left
        rw [BodyState.next, if_pos hquote] at hpass
        rw [advanceChar?_cons hleft]
        exact ⟨.string c r _ rest (congrArg (ScanMode.string c :: ·) hmodes) { hpass with },
          potential_lt hlt hpos (Nat.le_refl _)⟩
      next hquote =>
        rw [BodyState.next, if_neg hquote] at hpass
        rw [advanceChar?_cons h.left]
        exact ⟨.region r _ rest hmodes hpass, potential_lt hlt hpos (Nat.le_succ _)⟩

/-- A turn in a string takes a backslash with what follows it, the closing quote, or all up to the
next of these. -/
theorem proceeds_string {quote : Char} {r : Opened} {body rest : Text}
    (hmodes : s.modes = [.string quote, .region, .text])
    (h : Inside ds t result r (.quoted quote s.stringLine) body rest s)
    (hlt : s.offset < t.byteSize) : Proceeds ds t result s (s.turn? ds.openers t) := by
  obtain ⟨c, rest, rfl⟩ := List.exists_cons_of_ne_nil ((ne_nil_of_rest? h.left).mp hlt)
  have hpos := Nat.lt_add_of_pos_right (n := s.offset) c.utf8Size_pos
  have hpass := h.pass fun hc => by cases hc.1
  rw [BodyState.next] at hpass
  rw [turn?_string _ _ hmodes, atString?, h.left, Option.bind_some]
  dsimp only
  split
  next hbackslash =>
    rw [if_pos hbackslash] at hpass
    rw [advanceChar?_cons h.left, Option.bind_some, advanceChar?, hpass.left]
    cases rest with
    | nil =>
      -- The text ends behind the backslash, in an escape as in the string.
      exact ⟨.string quote r _ [] hmodes { hpass with }, potential_lt hlt hpos (Nat.le_succ _)⟩
    | cons d rest =>
      have hnext := hpass.pass fun hc => by cases hc.1
      have hfurther := Nat.lt_of_lt_of_le hpos (Nat.le_add_right _ d.utf8Size)
      exact ⟨.string quote r _ rest hmodes { hnext with },
        potential_lt hlt hfurther (Nat.le_succ _)⟩
  next hbackslash =>
    rw [if_neg hbackslash] at hpass
    split
    next hquote =>
      rw [if_pos hquote] at hpass
      rw [advanceChar?_cons h.left, Option.map_some, leave_eq (s := s.pass c) hmodes]
      refine ⟨.region r _ rest rfl { hpass with }, potential_lt hlt hpos ?_⟩
      rw [hmodes]
      exact Nat.le_add_right 2 2
    next hquote =>
      have hinner := h.pass_string (p := fun d => d ≠ quote && d ≠ '\\') (by simp)
      have hsome : 0 < Text.byteSize ((c :: rest).takeWhile fun d => d ≠ quote && d ≠ '\\') := by
        rw [List.takeWhile_cons, if_pos (by simp [hquote, hbackslash])]
        exact Text.byteSize_pos (List.cons_ne_nil _ _)
      rw [advanceWhile?_eq _ h.left]
      exact ⟨.string quote r _ _ hmodes { hinner with },
        potential_lt hlt (Nat.lt_add_of_pos_right hsome) (Nat.le_succ _)⟩

/-- A turn keeps the result and takes from what is left to do. -/
theorem Awaits.proceeds (h : Awaits ds t result s) (hlt : s.offset < t.byteSize) :
    Proceeds ds t result s (s.turn? ds.openers t) := by
  cases h with
  | text rest modes left result_eq => exact proceeds_text modes left result_eq hlt
  | region r body rest modes inside => exact proceeds_region modes inside hlt
  | string quote r body rest modes inside => exact proceeds_string modes inside hlt

theorem eq_nil_of_rest? {rest : Text} (h : s.rest? t = some rest)
    (hend : ¬ s.offset < t.byteSize) : rest = [] :=
  Classical.not_not.mp fun hne => hend ((ne_nil_of_rest? h).mpr hne)

/-- A region that is open where the text ends is the error that the loop ends in. -/
theorem Inside.result_of_end {r : Opened} {state : BodyState} {body : Text}
    (h : Inside ds t result r state body [] s) :
    result =
      .error ((state.unclosed s.line).error r.opener.kind r.line r.opener.closing) := by
  refine h.result_of_error ?_
  rw [regionAfter, h.closes]
  rfl

theorem Awaits.finish_eq (h : Awaits ds t result s) (hend : ¬ s.offset < t.byteSize) :
    s.finish = result := by
  cases h with
  | text rest modes left result_eq =>
    obtain rfl := eq_nil_of_rest? left hend
    rw [result_eq, finish, mode, modes, resultFrom, segmentsFrom, Except.map, tokensFrom,
      List.append_nil]
    rfl
  | region r body rest modes inside =>
    obtain rfl := eq_nil_of_rest? inside.left hend
    rw [inside.result_of_end, finish, mode, modes, inside.region_eq]
    rfl
  | string quote r body rest modes inside =>
    obtain rfl := eq_nil_of_rest? inside.left hend
    rw [inside.result_of_end, finish, mode, modes]
    rfl

/-- From where the result is awaited the loop ends in it, if it has turns for what is left to do. -/
theorem Awaits.run_eq (h : Awaits ds t result s) {turns : Nat} (hturns : s.potential t ≤ turns) :
    run ds.openers t turns s = .ended result := by
  induction turns generalizing s with
  | zero =>
    have hend : ¬ s.offset < t.byteSize := by
      unfold potential at hturns
      omega
    rw [run, if_neg hend, h.finish_eq hend]
  | succ turns ih =>
    rw [run]
    split
    next hlt =>
      have hproceeds := h.proceeds hlt
      split
      next hnone =>
        rw [hnone] at hproceeds
        exact hproceeds.elim
      next e he =>
        rw [he] at hproceeds
        rw [show result = .error e from hproceeds]
      next next hnext =>
        rw [hnext] at hproceeds
        obtain ⟨hawaits, hless⟩ := hproceeds
        exact ih hawaits (Nat.le_of_lt_succ (Nat.lt_of_lt_of_le hless hturns))
    next hend => rw [h.finish_eq hend]

/-- With two turns for each byte of the text the loop ends in the tokens. -/
theorem run_of_le (ds : DelimiterSet) (t : Text) {turns : Nat} (h : 2 * t.byteSize ≤ turns) :
    run ds.openers t turns {} = .ended (tokenize ds t) := by
  have hleft : rest? t {} = some t :=
    Text.slice?_eq_some_iff.mpr ⟨[], [], (List.append_nil t).symm, rfl, rfl⟩
  have hawaits : Awaits ds t (tokenize ds t) {} := .text t rfl hleft rfl
  exact hawaits.run_eq h

/-- The loop of the lexer ends for every text and all delimiters, within two turns for each byte of
the text and one more, and what is cut out of the text never starts or ends within a character. What
it returns are the tokens. -/
theorem run_tokenizes (ds : DelimiterSet) (t : Text) :
    run ds.openers t (2 * t.byteSize + 1) {} = .ended (tokenize ds t) :=
  run_of_le ds t (Nat.le_add_right _ 1)

-- A closing that is empty takes a turn and no byte, so there can be more turns than bytes.
example :
    let ds : DelimiterSet := ⟨none, some ⟨['a'], []⟩, none⟩
    run ds.openers ['a', 'a', 'é'] 4 {} = .goesOn ∧
      ∃ ks, run ds.openers ['a', 'a', 'é'] 5 {} = .ended (.ok ks) := by
  intro ds
  exact ⟨by decide, _, rfl⟩

end Scan

end Stencil
