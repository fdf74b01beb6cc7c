/- How lexemes are written in expressions, and that they are read back from it. -/
import Stencil.Expr.Parser
import Stencil.Proofs.Expr.Strings
import Stencil.Proofs.Segment.WrittenTags

namespace Stencil

theorem isBlank_eq_false_of_isQuote {c : Char} (h : IsQuote c) : Unicode.isBlank c = false :=
  Bool.eq_false_iff.mpr fun hblank => not_isQuote_of_isBlank hblank h

theorem toNat_of_isDigit {c : Char} (h : c.isDigit = true) : 0x30 ≤ c.toNat ∧ c.toNat < 0x3a := by
  simp only [Char.isDigit, Bool.and_eq_true, decide_eq_true_eq, ge_iff_le, UInt32.le_iff_toNat_le]
    at h
  exact ⟨h.1, Nat.lt_succ_of_le h.2⟩

namespace Unicode

theorem isWord_of_isDigit {c : Char} (h : c.isDigit = true) : isWord c = true := by
  obtain ⟨hfirst, hstop⟩ := toNat_of_isDigit h
  have hnumeral : isNumeral c = true := by
    rw [isNumeral, numerals, CodeSet.holds_of_le hfirst, CodeSet.holds_of_lt hstop]
    rfl
  rw [isWord, hnumeral, Bool.or_true, Bool.true_or]

/-- No name starts with a digit. -/
theorem isDigit_eq_false_of_isWordStart {c : Char} (h : isWordStart c = true) :
    c.isDigit = false := by
  refine Bool.eq_false_iff.mpr fun hdigit => ?_
  have hstop := (toNat_of_isDigit hdigit).2
  have hletter : isLetter c = false := by
    rw [isLetter, letters, CodeSet.holds_of_lt (by omega)]
  rw [isWordStart, hletter, Bool.false_or, beq_iff_eq] at h
  subst h
  cases hdigit

end Unicode

namespace Text

/-- A character in a string literal, where a backslash goes before the quote and before another
backslash. -/
def guarded (quote c : Char) : Text := if c = quote ∨ c = '\\' then ['\\', c] else [c]

/-- The string literal that stands for the text. -/
def inQuotes (quote : Char) (s : Text) : Text := quote :: (s.flatMap (guarded quote) ++ [quote])

theorem ofNat_ne_nil (n : Nat) : ofNat n ≠ [] := Nat.toDigits_ne_nil

theorem isDigit_of_mem_ofNat {n : Nat} {c : Char} (hc : c ∈ ofNat n) : c.isDigit = true :=
  Nat.isDigit_of_mem_toDigits (by decide) (by decide) hc

variable {p : Char → Bool} {t rest : Text}

/-- A run of characters ends where none of them follows. -/
theorem takeWhile_append_stop (ht : ∀ c ∈ t, p c = true)
    (hrest : ∀ c ∈ rest.head?, p c = false) : (t ++ rest).takeWhile p = t := by
  rw [List.takeWhile_append_of_pos ht]
  cases rest with
  | nil => rw [List.takeWhile_nil, List.append_nil]
  | cons c cs => rw [List.takeWhile_cons_of_neg (by simp [hrest c rfl]), List.append_nil]

theorem dropWhile_append_stop (ht : ∀ c ∈ t, p c = true)
    (hrest : ∀ c ∈ rest.head?, p c = false) : (t ++ rest).dropWhile p = rest := by
  rw [List.dropWhile_append_of_pos ht]
  cases rest with
  | nil => rfl
  | cons c cs => rw [List.dropWhile_cons_of_neg (by simp [hrest c rfl])]

end Text

theorem Number.ofLiteral?_of_le {n : Nat} (hn : (n : Int) ≤ greatestSigned) :
    ofLiteral? (Text.ofNat n) none = some (.int n) := by
  have hread : Nat.ofDigitChars 10 (Text.ofNat n) 0 = n := Nat.ofDigitChars_ten_toDigits
  simp only [ofLiteral?, hread, Option.isNone_none, true_and, if_pos hn]

namespace Lexeme

/-- Reading a string literal takes its backslashes off. -/
theorem stringBody_guarded {quote : Char} (hquote : IsQuote quote) (s rest : Text) :
    stringBody quote (s.flatMap (Text.guarded quote) ++ quote :: rest) =
      some (s, (s.flatMap (Text.guarded quote)).length + 1) := by
  have hbackslash : '\\' ≠ quote := by
    rcases hquote with rfl | rfl <;> decide
  induction s with
  | nil => exact stringBody_quote quote rest
  | cons c s ih =>
    rw [List.flatMap_cons, List.append_assoc, Text.guarded]
    split
    next hc =>
      rw [List.cons_append, List.singleton_append, stringBody, if_neg hbackslash, if_pos rfl]
      dsimp only
      rw [if_pos hc, ih]
      rfl
    next hc =>
      rw [List.singleton_append, stringBody_plain (not_or.mp hc).1 (not_or.mp hc).2, ih]
      rfl

/-- In front of `rest` the text reads as this lexeme, wherever it stands. -/
def Reads (l : Lexeme) (t rest : Text) : Prop :=
  ∃ c cs, t = c :: cs ∧ Unicode.isBlank c = false ∧
    ∀ position, startingAt position c (cs ++ rest) = .ok (l, t.length)

variable {name rest : Text}

theorem reads_inQuotes {quote : Char} (hquote : IsQuote quote) (s rest : Text) :
    (text s).Reads (s.inQuotes quote) rest := by
  refine ⟨quote, _, rfl, isBlank_eq_false_of_isQuote hquote, fun position => ?_⟩
  rw [List.append_assoc, List.singleton_append, startingAt, if_pos hquote,
    stringBody_guarded hquote]
  simp [Text.inQuotes]

/-- What starts with a digit is read as a number. -/
theorem reads_of_numberAt {l : Lexeme} {t : Text} (hne : t ≠ [])
    (hfirst : ∀ c ∈ t.head?, c.isDigit = true)
    (h : ∀ position, numberAt position (t ++ rest) = .ok (l, t.length)) : l.Reads t rest := by
  obtain ⟨c, cs, rfl⟩ := List.exists_cons_of_ne_nil hne
  have hdigit := hfirst c rfl
  refine ⟨c, cs, rfl, ?_, fun position => ?_⟩
  · exact Unicode.isBlank_eq_false_of_isWord (Unicode.isWord_of_isDigit hdigit)
  · rw [startingAt, if_neg (not_isQuote_of_isDigit hdigit), if_pos hdigit]
    exact h position

theorem isDigit_of_mem_head?_ofNat {n : Nat} : ∀ c ∈ (Text.ofNat n).head?, c.isDigit = true :=
  fun _ hc => Text.isDigit_of_mem_ofNat (List.mem_of_mem_head? hc)

/-- Digits are one literal up to what is no digit and no fraction. -/
theorem reads_ofLiteral? {n : Nat} {m : Number}
    (hm : Number.ofLiteral? (Text.ofNat n) none = some m)
    (hrest : ∀ c ∈ rest.head?, c.isDigit = false) (hfraction : fraction? rest = none) :
    (number m).Reads (Text.ofNat n) rest := by
  have hdigits : ∀ c ∈ Text.ofNat n, c.isDigit = true := fun _ => Text.isDigit_of_mem_ofNat
  refine reads_of_numberAt (Text.ofNat_ne_nil n) isDigit_of_mem_head?_ofNat fun position => ?_
  rw [numberAt, Text.takeWhile_append_stop hdigits hrest, Text.dropWhile_append_stop hdigits hrest,
    hfraction]
  simp only [hm]
  rfl

theorem reads_ofNat {n : Nat} (hn : (n : Int) ≤ Number.greatestSigned)
    (hrest : ∀ c ∈ rest.head?, c.isDigit = false) (hfraction : fraction? rest = none) :
    (number (.int n)).Reads (Text.ofNat n) rest :=
  reads_ofLiteral? (Number.ofLiteral?_of_le hn) hrest hfraction

theorem reads_var (hname : name ≠ []) (hword : ∀ c ∈ name, Unicode.isWord c = true)
    (hrest : ∀ c ∈ rest.head?, Unicode.isWord c = false) : (var name).Reads ('$' :: name) rest := by
  refine ⟨'$', name, rfl, rfl, fun position => ?_⟩
  rw [startingAt, if_neg (by decide), if_neg (by decide), if_pos rfl,
    Text.takeWhile_append_stop hword hrest]
  simp [hname]

theorem reads_ident (hname : name.IsName)
    (hrest : ∀ c ∈ rest.head?, Unicode.isWord c = false) : (ident name).Reads name rest := by
  have hword := hname.isWord
  obtain ⟨c, cs, rfl, hstart, -⟩ := hname
  have hc := hword c List.mem_cons_self
  have hdigit := Unicode.isDigit_eq_false_of_isWordStart hstart
  have hsigil : c ≠ '$' := by
    rintro rfl
    cases hstart
  refine ⟨c, cs, rfl, Unicode.isBlank_eq_false_of_isWord hc, fun position => ?_⟩
  rw [startingAt, if_neg (not_isQuote_of_isWord hc), if_neg (by simp [hdigit]), if_neg hsigil,
    if_pos hstart, ← List.cons_append, Text.takeWhile_append_stop hword hrest]

end Lexeme

variable {l : Lexeme} {t rest : Text}

/-- A lexeme that stands in front becomes the first token. -/
theorem tokensAt_of_reads (h : l.Reads t rest) (position : Nat) :
    tokensAt 0 position (t ++ rest) = (tokensAt 0 (position + t.byteSize) rest).map fun run =>
      { run with tokens := ⟨l, position⟩ :: run.tokens } := by
  obtain ⟨c, cs, rfl, hblank, hstart⟩ := h
  rw [List.cons_append, tokensAt, if_neg (Bool.eq_false_iff.mp hblank), hstart]
  dsimp only
  rw [List.length_cons, Nat.add_sub_cancel, tokensAt_append, Nat.add_assoc, ← Text.byteSize_cons]

theorem tokensAt_of_isBlank {gap : Text} (hgap : ∀ c ∈ gap, Unicode.isBlank c = true)
    (position : Nat) (t : Text) :
    tokensAt 0 position (gap ++ t) = tokensAt 0 (position + gap.byteSize) t := by
  induction gap generalizing position with
  | nil => rfl
  | cons c gap ih =>
    obtain ⟨hc, hgap⟩ := List.forall_mem_cons.mp hgap
    rw [List.cons_append, tokensAt, if_pos hc, ih hgap, Nat.add_assoc, ← Text.byteSize_cons]

namespace Progress

/-- What comes of an expression read in part when the text, at byte `position`, goes on with it. -/
def parseOn (s : Progress) (position : Nat) (t : Text) : Except ParseError Expr :=
  match tokensAt 0 position t with
  | .ok r =>
    match s.run r.tokens with
    | .ok next => next.finish r.stop
    | .error e => .error e
  | .error e => .error e

theorem parse_eq_parseOn (t : Text) : Expr.parse t = start.parseOn 0 t := rfl

theorem parseOn_nil (s : Progress) (position : Nat) :
    s.parseOn position [] = s.finish position := rfl

variable {s next : Progress} {position : Nat}

theorem parseOn_of_reads (h : l.Reads t rest) (hstep : s.step ⟨l, position⟩ = .ok next) :
    s.parseOn position (t ++ rest) = next.parseOn (position + t.byteSize) rest := by
  rw [parseOn, tokensAt_of_reads h]
  cases hrest : tokensAt 0 (position + t.byteSize) rest with
  | ok r => simp only [Except.map, run, hstep, parseOn, hrest]
  | error e => simp only [Except.map, parseOn, hrest]

/-- A lexeme that cannot go on is the error, once the whole text has been scanned. -/
theorem parseOn_eq_error {r : TokenRun} {e : ParseError} (h : l.Reads t rest)
    (hstep : s.step ⟨l, position⟩ = .error e)
    (hrest : tokensAt 0 (position + t.byteSize) rest = .ok r) :
    s.parseOn position (t ++ rest) = .error e := by
  rw [parseOn, tokensAt_of_reads h, hrest]
  simp only [Except.map, run, hstep]

end Progress

end Stencil
