/- The string literals of an expression are the strings that the lexer passed over in it. -/
import Mathlib.Data.List.Forall2
import Stencil.Expr.Tokens
import Stencil.Proofs.Segment.Strings

namespace Stencil

def Lexeme.isText : Lexeme → Bool
  | .text _ => true
  | _ => false

/-- The token is the string that stands at its position in the text, and takes up these bytes from
its quote to the closing one. -/
inductive ExprToken.Occupies : Text → ExprToken → Span → Prop
  | mk (front : Text) {quote : Char} {inner rear value : Text} : IsQuote quote →
      Lexeme.stringBody quote (inner ++ rear) = some (value, inner.length) →
      Occupies (front ++ quote :: (inner ++ rear)) ⟨.text value, front.byteSize⟩
        ⟨front.byteSize, Text.byteSize (front ++ quote :: inner)⟩

namespace Lexeme

theorem stringBody_quote (quote : Char) (t : Text) :
    stringBody quote (quote :: t) = some ([], 1) := by
  cases t <;> simp [stringBody]

theorem stringBody_plain {quote c : Char} (hquote : c ≠ quote) (hescape : c ≠ '\\') (t : Text) :
    stringBody quote (c :: t) = (stringBody quote t).map fun (v, n) => (c :: v, n + 1) := by
  cases t <;> simp [stringBody, hquote, hescape]

/-- A string that is complete is read up to its end. -/
theorem exists_stringBody {quote : Char} {s : Text} (hquote : IsQuote quote)
    (hs : StringRest quote s) (u : Text) : ∃ v, stringBody quote (s ++ u) = some (v, s.length) := by
  have hbackslash : '\\' ≠ quote := by
    rcases hquote with rfl | rfl <;> decide
  induction hs with
  | close => exact ⟨[], stringBody_quote quote u⟩
  | @escaped t c _ ih =>
    obtain ⟨v, hv⟩ := ih
    rw [List.cons_append, List.cons_append, stringBody, if_neg hbackslash, if_pos rfl]
    by_cases hc : c = quote ∨ c = '\\'
    · exact ⟨c :: v, by simp [hc, hv]⟩
    · obtain ⟨hne, hplain⟩ := not_or.mp hc
      rw [if_neg hc, stringBody_plain hne hplain]
      exact ⟨'\\' :: c :: v, by simp [hv]⟩
  | @plain c t hne hplain _ ih =>
    obtain ⟨v, hv⟩ := ih
    rw [List.cons_append, stringBody_plain hne hplain]
    exact ⟨c :: v, by simp [hv]⟩

/-- The lexeme is no string, and so long that it holds no quote. -/
structure KeepsOff (t : Text) (l : Lexeme) (length : Nat) : Prop where
  isText : l.isText = false
  covers : ∃ r u, t = r ++ u ∧ r.length = length ∧ ∀ c ∈ r, ¬ IsQuote c

theorem KeepsOff.of_take {t : Text} {l : Lexeme} {length : Nat} (hl : l.isText = false)
    (hlength : (t.take length).length = length) (h : ∀ c ∈ t.take length, ¬ IsQuote c) :
    KeepsOff t l length :=
  ⟨hl, t.take length, t.drop length, (List.take_append_drop length t).symm, hlength, h⟩

theorem not_isQuote_of_isDigit {c : Char} (hc : c.isDigit = true) : ¬ IsQuote c := by
  rintro (rfl | rfl) <;> revert hc <;> decide

theorem keepsOff_takeWhile {p : Char → Bool} (hp : ∀ c, p c = true → ¬ IsQuote c) {t : Text}
    {l : Lexeme} (hl : l.isText = false) : KeepsOff t l (t.takeWhile p).length :=
  ⟨hl, t.takeWhile p, t.dropWhile p, List.takeWhile_append_dropWhile.symm, rfl,
    not_isQuote_takeWhile hp t⟩

theorem keepsOff_of_numberAt {position length : Nat} {t : Text} {l : Lexeme}
    (h : numberAt position t = .ok (l, length)) : KeepsOff t l length := by
  unfold numberAt at h
  dsimp only at h
  split at h
  next n _ =>
    cases h
    have hwhole := not_isQuote_takeWhile (p := Char.isDigit) (fun _ => not_isQuote_of_isDigit)
    have ht : t = t.takeWhile Char.isDigit ++ t.dropWhile Char.isDigit :=
      List.takeWhile_append_dropWhile.symm
    refine ⟨rfl, ?_⟩
    unfold fraction?
    split
    next d ds hrest =>
      split
      next =>
        refine ⟨t.takeWhile Char.isDigit ++ '.' :: (d :: ds).takeWhile Char.isDigit,
          (d :: ds).dropWhile Char.isDigit, ?_, ?_, ?_⟩
        · rw [List.append_assoc, List.cons_append, List.takeWhile_append_dropWhile, ← hrest]
          exact ht
        · rw [List.length_append]
          rfl
        · refine List.forall_mem_append.mpr ⟨hwhole t, List.forall_mem_cons.mpr ⟨?_, hwhole _⟩⟩
          decide
      next => exact ⟨_, _, ht, rfl, hwhole t⟩
    next => exact ⟨_, _, ht, rfl, hwhole t⟩
  next => cases h

theorem keepsOff_of_symbolAt? {t : Text} {l : Lexeme} {length : Nat}
    (h : symbolAt? t = some (l, length)) : KeepsOff t l length := by
  unfold symbolAt? at h
  split at h <;> cases h
  all_goals exact .of_take rfl rfl (by simp [IsQuote])

theorem keepsOff_of_startingAt {position length : Nat} {c : Char} {cs : Text} {l : Lexeme}
    (hc : ¬ IsQuote c) (h : startingAt position c cs = .ok (l, length)) :
    KeepsOff (c :: cs) l length := by
  rw [startingAt, if_neg hc] at h
  split at h
  next => exact keepsOff_of_numberAt h
  next =>
    split at h
    next =>
      dsimp only at h
      split at h
      next => cases h
      next =>
        cases h
        refine ⟨rfl, c :: cs.takeWhile Unicode.isWord, cs.dropWhile Unicode.isWord, ?_, rfl, ?_⟩
        · rw [List.cons_append, List.takeWhile_append_dropWhile]
        · exact List.forall_mem_cons.mpr
            ⟨hc, not_isQuote_takeWhile (fun _ => not_isQuote_of_isWord) cs⟩
    next =>
      split at h
      next =>
        cases h
        exact keepsOff_takeWhile (fun _ => not_isQuote_of_isWord) rfl
      next =>
        split at h
        next found hfound =>
          cases h
          exact keepsOff_of_symbolAt? hfound
        next => cases h

theorem kind_ne_of_startingAt {position : Nat} {c : Char} {cs : Text} {e : ParseError}
    (hc : ¬ IsQuote c) (h : startingAt position c cs = .error e) :
    e.kind ≠ .unterminatedString := by
  rw [startingAt, if_neg hc] at h
  split at h
  next =>
    unfold numberAt at h
    dsimp only at h
    split at h
    next => cases h
    next => cases h; nofun
  next =>
    split at h
    next =>
      dsimp only at h
      split at h
      next => cases h; nofun
      next => cases h
    next =>
      split at h
      next => cases h
      next =>
        split at h
        next => cases h
        next => cases h; nofun

end Lexeme

/-- A lexeme that was taken is skipped character by character. -/
theorem tokensAt_append (r t : Text) (position : Nat) :
    tokensAt r.length position (r ++ t) = tokensAt 0 (position + r.byteSize) t := by
  induction r generalizing position with
  | nil => rfl
  | cons c r ih => rw [List.cons_append, List.length_cons, tokensAt, ih, Text.byteSize_cons,
      Nat.add_assoc]

/-- No string is left open, and the string tokens of a run are these strings of the text. -/
structure FindsStrings (whole : Text) (σs : List Span) (r : Except ParseError TokenRun) :
    Prop where
  terminated : ∀ e, r = .error e → e.kind ≠ .unterminatedString
  occupies : ∀ run, r = .ok run →
    List.Forall₂ (ExprToken.Occupies whole) (run.tokens.filter fun k => k.lexeme.isText) σs

theorem findsStrings_of_hasStrings {whole : Text} {offset : Nat} {t : Text} {σs : List Span}
    (h : HasStrings offset t σs) {front : Text} (hwhole : whole = front ++ t)
    (hoffset : front.byteSize = offset) {skip : Nat} (hskip : ∀ c ∈ t.take skip, ¬ IsQuote c) :
    FindsStrings whole σs (tokensAt skip offset t) := by
  induction h generalizing front skip with
  | nil =>
    refine ⟨?_, ?_⟩
    · intro e he
      cases skip <;> cases he
    · intro run hrun
      cases skip <;> (cases hrun; exact .nil)
  | @plain offset c t σs hc _ ih =>
    have hnext : whole = (front ++ [c]) ++ t := by rw [hwhole, List.append_assoc]; rfl
    have hstop : Text.byteSize (front ++ [c]) = offset + c.utf8Size := by
      rw [Text.byteSize_append, hoffset]
      rfl
    cases skip with
    | succ skip =>
      rw [tokensAt]
      apply ih hnext hstop
      intro d hd
      exact hskip d (List.mem_cons_of_mem c hd)
    | zero =>
      rw [tokensAt]
      split
      next => exact ih hnext hstop nofun
      next =>
        split
        next e he =>
          refine ⟨?_, nofun⟩
          rintro _ ⟨⟩
          exact Lexeme.kind_ne_of_startingAt hc he
        next l length hl =>
          obtain ⟨htext, r, u, hsplit, rfl, hr⟩ := Lexeme.keepsOff_of_startingAt hc hl
          have hrest : ∀ d ∈ t.take (r.length - 1), ¬ IsQuote d := by
            intro d hd
            cases r with
            | nil => cases hd
            | cons e r =>
              have hsplit' : t = r ++ u := (List.cons.inj hsplit).2
              rw [hsplit', List.length_cons, Nat.add_sub_cancel, List.take_left] at hd
              exact hr d (List.mem_cons_of_mem _ hd)
          obtain ⟨hterminated, hoccupies⟩ := ih hnext hstop hrest
          refine ⟨?_, ?_⟩
          · intro e he
            exact hterminated e (Outcome.map_eq_error_iff.mp he)
          · intro run hrun
            obtain ⟨rest, hrest, rfl⟩ := Outcome.map_eq_ok_iff.mp hrun
            rw [List.filter_cons_of_neg (by simp [htext])]
            exact hoccupies rest hrest
  | @string offset quote s t σs hquote hs _ ih =>
    cases skip with
    | succ skip => exact absurd hquote (hskip quote List.mem_cons_self)
    | zero =>
      obtain ⟨v, hv⟩ := Lexeme.exists_stringBody hquote hs t
      have hblank : ¬ Unicode.isBlank quote = true :=
        fun hblank => not_isQuote_of_isBlank hblank hquote
      have hnext : whole = (front ++ quote :: s) ++ t := by
        rw [hwhole, List.append_assoc, List.cons_append]
      have hstop : Text.byteSize (front ++ quote :: s) = offset + Text.byteSize (quote :: s) := by
        rw [Text.byteSize_append, hoffset]
      have hskip : ∀ d ∈ t.take 0, ¬ IsQuote d := nofun
      obtain ⟨hterminated, hoccupies⟩ := ih hnext hstop hskip
      rw [tokensAt, if_neg hblank, Lexeme.startingAt, if_pos hquote, hv]
      dsimp only
      rw [Nat.add_sub_cancel, tokensAt_append, Nat.add_assoc, ← Text.byteSize_cons]
      refine ⟨?_, ?_⟩
      · intro e he
        exact hterminated e (Outcome.map_eq_error_iff.mp he)
      · intro run hrun
        obtain ⟨rest, hrest, rfl⟩ := Outcome.map_eq_ok_iff.mp hrun
        rw [List.filter_cons_of_pos rfl, ← hoffset, ← Text.byteSize_append, hwhole]
        rw [hwhole] at hoccupies
        exact .cons (.mk front hquote hv) (hoccupies rest hrest)

theorem eq_trim_of_expression? {argument e : Text} (h : Segment.expression? argument = some e) :
    e = argument.trim := by
  unfold Segment.expression? at h
  split at h
  next => cases h
  next => exact (Option.some.inj h).symm

/-- The expression of a segment is the text in it that has the strings of the segment. -/
theorem expression_of_mem_tokens {s : Segment} {line offset : Nat} {k : Token}
    (hk : k ∈ s.tokens line offset) (hkind : k.kind = .expression) :
    k.start = offset + s.expressionStart ∧ k.stop = k.start + s.expressionText.byteSize ∧
      k.value = s.expressionText.trim := by
  cases s with
  | text u => cases hk
  | escapedOpening opening =>
    obtain rfl := List.mem_singleton.mp hk
    cases hkind
  | tag kind opening body closing =>
    simp only [Segment.tokens, List.mem_cons, List.not_mem_nil, or_false] at hk
    rcases hk with rfl | rfl | rfl
    · cases hkind
    · exact ⟨rfl, rfl, rfl⟩
    · cases hkind
  | directive opening lead name argument closing =>
    simp only [Segment.tokens, List.mem_cons, List.mem_append, List.not_mem_nil, or_false] at hk
    rcases hk with rfl | rfl | hexpression | rfl
    · cases hkind
    · cases hkind
    · split at hexpression
      next e he =>
        obtain rfl := List.mem_singleton.mp hexpression
        refine ⟨?_, rfl, eq_trim_of_expression? he⟩
        simp only [Segment.expressionStart, Text.byteSize_append, Nat.add_assoc]
      next => cases hexpression
    · cases hkind

theorem Segment.exists_raw (s : Segment) : ∃ front rear,
    s.raw = front ++ (s.expressionText ++ rear) ∧ front.byteSize = s.expressionStart := by
  cases s with
  | text u => exact ⟨[], u, rfl, rfl⟩
  | escapedOpening opening => exact ⟨[], '\\' :: opening, rfl, rfl⟩
  | tag kind opening body closing => exact ⟨opening, closing, rfl, rfl⟩
  | directive opening lead name argument closing =>
    refine ⟨opening ++ (lead ++ name), closing, ?_, rfl⟩
    simp only [Segment.raw, Segment.expressionText, List.append_assoc]

theorem exists_of_mem_tokensFrom {ss : List Segment} {line offset : Nat} {σs : List Span}
    {t front : Text} {k : Token} (ht : t = front ++ source ss) (hfront : front.byteSize = offset)
    (hσs : AllHaveStrings offset ss σs) (hk : k ∈ tokensFrom line offset ss)
    (hkind : k.kind = .expression) :
    ∃ x, t.slice? k.start k.stop = some x ∧ k.value = x.trim ∧
      HasStrings k.start x (σs.filter (Span.meets k.start k.stop)) := by
  induction hσs generalizing line front with
  | nil => cases hk
  | @cons offset s ss σs τs hs hss ih =>
    rw [source_cons] at ht
    rw [List.filter_append]
    rcases List.mem_append.mp hk with hk | hk
    · obtain ⟨hstart, hstop, hvalue⟩ := expression_of_mem_tokens hk hkind
      have hend := s.expressionStart_add_le
      refine ⟨s.expressionText, ?_, hvalue, ?_⟩
      · obtain ⟨lead, rear, hraw, hlead⟩ := s.exists_raw
        have hsplit : t = (front ++ lead) ++ (s.expressionText ++ (rear ++ source ss)) := by
          rw [ht, hraw]
          simp only [List.append_assoc]
        apply Text.slice?_of_eq hsplit
        · rw [Text.byteSize_append, hfront, hlead, hstart]
        · exact hstop.symm
      · rw [← hstart] at hs
        rw [List.filter_eq_self.mpr, List.filter_eq_nil_iff.mpr, List.append_nil]
        · exact hs
        · intro σ hσ
          exact (hss.within σ hσ).not_meets (.inr (by omega))
        · intro σ hσ
          rw [hstop]
          exact (hs.within σ hσ).meets
    · have hrest : t = (front ++ s.raw) ++ source ss := by rw [ht, List.append_assoc]
      have hstop : Text.byteSize (front ++ s.raw) = offset + s.raw.byteSize := by
        rw [Text.byteSize_append, hfront]
      obtain ⟨x, hx, hvalue, hstrings⟩ := ih hrest hstop hk
      have hstart := (pairwise_tokensFrom ss _ _).2 k hk
      have hend := s.expressionStart_add_le
      rw [List.filter_eq_nil_iff.mpr]
      · exact ⟨x, hx, hvalue, hstrings⟩
      · intro σ hσ
        exact (hs.within σ hσ).not_meets (.inl (by omega))

/-- A text that stands further on has the strings that it has in front, moved. -/
theorem HasStrings.exists_moved {offset bytes : Nat} {t : Text} {σs : List Span}
    (h : HasStrings (offset + bytes) t σs) :
    ∃ τs, HasStrings offset t τs ∧ τs.map (Span.moved bytes) = σs := by
  generalize hstart : offset + bytes = start at h
  induction h generalizing offset with
  | nil => exact ⟨[], .nil, rfl⟩
  | @plain start c t σs hc _ ih =>
    have hnext : offset + c.utf8Size + bytes = start + c.utf8Size := by omega
    obtain ⟨τs, hτs, rfl⟩ := ih hnext
    exact ⟨τs, .plain hc hτs, rfl⟩
  | @string start quote s t σs hquote hs _ ih =>
    have hnext : offset + Text.byteSize (quote :: s) + bytes =
        start + Text.byteSize (quote :: s) := by
      omega
    obtain ⟨τs, hτs, rfl⟩ := ih hnext
    refine ⟨_, .string hquote hs hτs, ?_⟩
    rw [List.map_cons, Span.moved, Nat.add_right_comm, hstart]

/-- In every text that can be cut, the expression of a region never leaves a string open, and the
strings that are read in it are those that the lexer passed over there, byte for byte. -/
theorem passedStrings_of_expression {ds : DelimiterSet} {t : Text} {ks : List Token} {k : Token}
    (h : tokenize ds t = .ok ks) (hk : k ∈ ks) (hkind : k.kind = .expression) :
    (∀ e, exprTokens k.value = .error e → e.kind ≠ .unterminatedString) ∧
      ∃ x, t.slice? k.start k.stop = some x ∧ k.value = x.trim ∧
        ∀ run, exprTokens k.value = .ok run → ∃ σs,
          List.Forall₂ (ExprToken.Occupies k.value)
            (run.tokens.filter fun l => l.lexeme.isText) σs ∧
          σs.map (Span.moved (k.start + Text.byteSize (x.takeWhile Unicode.isBlank))) =
            (passedStrings ds t).filter (Span.meets k.start k.stop) := by
  obtain ⟨ss, hss, rfl⟩ := Outcome.map_eq_ok_iff.mp h
  have hstrings : AllHaveStrings 0 ss (passedStrings ds t) :=
    allHaveStrings_of_segmentsFrom (fun _ => DelimiterSet.opening_ne_nil) hss
  have ht : t = [] ++ source ss := (source_segments hss).symm
  obtain ⟨x, hx, hvalue, hpassed⟩ := exists_of_mem_tokensFrom ht rfl hstrings hk hkind
  have htrim := hpassed.trim
  rw [← hvalue, ← Nat.zero_add (k.start + _)] at htrim
  obtain ⟨σs, hσs, hmoved⟩ := htrim.exists_moved
  have hskip : ∀ c ∈ k.value.take 0, ¬ IsQuote c := nofun
  have hfinds := findsStrings_of_hasStrings hσs (List.nil_append _).symm rfl hskip
  refine ⟨hfinds.terminated, x, hx, hvalue, ?_⟩
  intro run hrun
  exact ⟨σs, hfinds.occupies run hrun, hmoved⟩

/-- The closing stands in a string, which also holds both quotes and ends in a backslash. The white
space around the argument is more than one byte wide. -/
def Text.shownQuotes : Text := "é<% show\u00a0(\"%>'\\\"\\\\\" , '') %>".toList

def Token.shownQuotes : Token := ⟨.expression, "(\"%>'\\\"\\\\\" , '')".toList, 1, 9, 28⟩

theorem passedStrings_of_expression_show : ∃ ks run x, tokenize {} .shownQuotes = .ok ks ∧
    .shownQuotes ∈ ks ∧ Token.shownQuotes.kind = .expression ∧
    exprTokens Token.shownQuotes.value = .ok run ∧
    run.tokens.filter (fun l => l.lexeme.isText) = [⟨.text "%>'\"\\".toList, 1⟩, ⟨.text [], 13⟩] ∧
    Text.shownQuotes.slice? 9 28 = some x ∧ Token.shownQuotes.value = x.trim ∧
    (passedStrings {} .shownQuotes).filter (Span.meets 9 28) = [⟨12, 21⟩, ⟨24, 26⟩] ∧ ∃ σs,
      List.Forall₂ (ExprToken.Occupies Token.shownQuotes.value)
        (run.tokens.filter fun l => l.lexeme.isText) σs ∧
      σs.map (Span.moved (9 + Text.byteSize (x.takeWhile Unicode.isBlank))) =
        (passedStrings {} .shownQuotes).filter (Span.meets 9 28) := by
  have htokens : (tokenize {} .shownQuotes).map (fun ks => decide (.shownQuotes ∈ ks)) =
      .ok true := by
    decide +kernel
  have hrun : (exprTokens Token.shownQuotes.value).map
      (fun run => run.tokens.filter fun l => l.lexeme.isText) =
        .ok [⟨.text "%>'\"\\".toList, 1⟩, ⟨.text [], 13⟩] := by
    decide +kernel
  obtain ⟨ks, hks, hmem⟩ := Outcome.map_eq_ok_iff.mp htokens
  obtain ⟨run, hok, hlexemes⟩ := Outcome.map_eq_ok_iff.mp hrun
  have hmem := of_decide_eq_true hmem
  obtain ⟨-, x, hx, hvalue, hstrings⟩ := passedStrings_of_expression hks hmem rfl
  exact ⟨ks, run, x, hks, hmem, rfl, hok, hlexemes, hx, hvalue, by decide +kernel,
    hstrings run hok⟩

end Stencil
