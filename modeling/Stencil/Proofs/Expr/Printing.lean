/- Printed lexemes are scanned back, each at the byte where it was printed. -/
import Stencil.Proofs.Expr.Spelling
import Stencil.Usual

namespace Stencil

namespace Lexeme

/-- The lexeme as it is written; strings stand in `quote`. -/
def written (platform : Platform) (quote : Char) : Lexeme → Text
  | .text t => t.inQuotes quote
  | .number n => n.text platform
  | .var name => '$' :: name
  | .ident name => name
  | .openParen => ['(']
  | .closeParen => [')']
  | .openBracket => ['[']
  | .closeBracket => [']']
  | .comma => [',']
  | .dot => ['.']
  | .question => ['?']
  | .colon => [':']
  | .bang => ['!']
  | .minus => ['-']
  | .op o => o.spelling.toList

/-- The lexeme can be written: its number is a natural one that fits a signed word, and its name is
a name. -/
def Writable : Lexeme → Prop
  | .number n => ∃ k : Nat, n = .int k ∧ (k : Int) ≤ Number.greatestSigned
  | .var name => name ≠ [] ∧ ∀ c ∈ name, Unicode.isWord c = true
  | .ident name => name.IsName
  | _ => True

variable {rest : Text}

/-- The symbols of one character with which one of two could begin. -/
theorem reads_of_symbolAt? {c : Char} {l : Lexeme} (hc : c = '!' ∨ c = '<' ∨ c = '>')
    (h : symbolAt? (c :: rest) = some (l, 1)) : l.Reads [c] rest := by
  refine ⟨c, [], rfl, ?_, fun position => ?_⟩
  · rcases hc with rfl | rfl | rfl <;> rfl
  · rw [List.nil_append, startingAt, h]
    rcases hc with rfl | rfl | rfl <;> rfl

/-- No equals sign follows that would make one operator of two characters. -/
theorem reads_written_op (o : BinaryOp) (hrest : ∀ c ∈ rest.head?, c ≠ '=') :
    (op o).Reads o.spelling.toList rest := by
  have hequals : ∀ cs, rest = '=' :: cs → False := fun cs h => hrest '=' (h ▸ rfl) rfl
  cases o with
  | lt =>
    have hsymbol : symbolAt? ('<' :: rest) = some (op .lt, 1) := by simp only [symbolAt?]
    exact reads_of_symbolAt? (.inr (.inl rfl)) hsymbol
  | gt =>
    have hsymbol : symbolAt? ('>' :: rest) = some (op .gt, 1) := by simp only [symbolAt?]
    exact reads_of_symbolAt? (.inr (.inr rfl)) hsymbol
  | _ => exact ⟨_, _, rfl, rfl, fun _ => rfl⟩

/-- White space ends every lexeme. -/
theorem reads_written (platform : Platform) {l : Lexeme} {quote : Char} (hquote : IsQuote quote) (hl : l.Writable)
    (hrest : ∀ c ∈ rest.head?, Unicode.isBlank c = true) :
    l.Reads (l.written platform quote) rest := by
  have hword : ∀ c ∈ rest.head?, Unicode.isWord c = false := by
    intro c hc
    refine Bool.eq_false_iff.mpr fun hword => ?_
    cases (hrest c hc).symm.trans (Unicode.isBlank_eq_false_of_isWord hword)
  have hequals : ∀ c ∈ rest.head?, c ≠ '=' := by
    rintro c hc rfl
    cases hrest '=' hc
  cases l with
  | text t => exact reads_inQuotes hquote t rest
  | number n =>
    obtain ⟨k, rfl, hk⟩ := hl
    refine reads_ofNat hk ?_ ?_
    · intro c hc
      exact Bool.eq_false_iff.mpr fun hdigit =>
        Bool.eq_false_iff.mp (hword c hc) (Unicode.isWord_of_isDigit hdigit)
    · unfold fraction?
      split
      next => cases hrest '.' rfl
      next => rfl
  | var name => exact reads_var hl.1 hl.2 hword
  | ident name => exact reads_ident hl hword
  | bang =>
    have hequals : ∀ cs, rest = '=' :: cs → False := fun cs h => hequals '=' (h ▸ rfl) rfl
    exact reads_of_symbolAt? (.inl rfl) (by simp only [symbolAt?])
  | op o => exact reads_written_op o hequals
  | _ => exact ⟨_, _, rfl, rfl, fun _ => rfl⟩

end Lexeme

/-- A lexeme as it is printed: with white space in front of it and, should it be a string, in this
quote. -/
structure Printed where
  gap : Text
  lexeme : Lexeme
  quote : Char := '"'
  gap_blank : ∀ c ∈ gap, Unicode.isBlank c = true
  lexeme_writable : lexeme.Writable
  quote_isQuote : IsQuote quote := by exact .inl rfl

namespace Printed

variable (platform : Platform)

def source (p : Printed) : Text := p.gap ++ p.lexeme.written platform p.quote

/-- The tokens of lexemes printed from byte `offset` on. -/
def tokensFrom : Nat → List Printed → List ExprToken
  | _, [] => []
  | offset, p :: ps =>
    ⟨p.lexeme, offset + p.gap.byteSize⟩ :: tokensFrom (offset + (p.source platform).byteSize) ps

/-- The text of printed lexemes, with white space behind the last. -/
def text (ps : List Printed) (trail : Text) : Text := ps.flatMap (source platform) ++ trail

variable {ps : List Printed} {trail : Text}

theorem text_cons (p : Printed) : text platform (p :: ps) trail =
    p.gap ++ (p.lexeme.written platform p.quote ++ text platform ps trail) := by
  simp only [text, source, List.flatMap_cons, List.append_assoc]

/-- White space or nothing at all follows a printed lexeme. -/
theorem isBlank_of_mem_head? (htrail : ∀ c ∈ trail, Unicode.isBlank c = true)
    (hgaps : ∀ p ∈ ps, p.gap ≠ []) :
    ∀ c ∈ (text platform ps trail).head?, Unicode.isBlank c = true := by
  intro c hc
  cases ps with
  | nil => exact htrail c (List.mem_of_mem_head? hc)
  | cons p ps =>
    obtain ⟨d, gap, hgap⟩ := List.exists_cons_of_ne_nil (hgaps p List.mem_cons_self)
    rw [text_cons, hgap] at hc
    cases hc
    exact p.gap_blank c (hgap ▸ List.mem_cons_self)

theorem tokensAt_text (htrail : ∀ c ∈ trail, Unicode.isBlank c = true)
    (hgaps : ∀ p ∈ ps.tail, p.gap ≠ []) (offset : Nat) :
    tokensAt 0 offset (text platform ps trail) =
      .ok ⟨tokensFrom platform offset ps, offset + (text platform ps trail).byteSize⟩ := by
  induction ps generalizing offset with
  | nil =>
    have hblank := tokensAt_of_isBlank htrail offset []
    rw [List.append_nil] at hblank
    exact hblank
  | cons p ps ih =>
    rw [List.tail_cons] at hgaps
    have hreads : p.lexeme.Reads (p.lexeme.written platform p.quote) (text platform ps trail) :=
      Lexeme.reads_written platform p.quote_isQuote p.lexeme_writable (isBlank_of_mem_head? platform htrail hgaps)
    have hrest := ih (fun q hq => hgaps q (List.mem_of_mem_tail hq)) (offset + (p.source platform).byteSize)
    rw [source, Text.byteSize_append, ← Nat.add_assoc] at hrest
    rw [text_cons, tokensAt_of_isBlank p.gap_blank, tokensAt_of_reads hreads, hrest]
    simp [Except.map, tokensFrom, source, Nat.add_assoc]

end Printed

/-- Scanning undoes printing: whatever lexemes are printed, with white space between them and any
around them, are scanned back in order, each at the byte where it was printed, up to the end of the
text. -/
theorem exprTokens_printed (platform : Platform) (ps : List Printed) {trail : Text}
    (htrail : ∀ c ∈ trail, Unicode.isBlank c = true) (hgaps : ∀ p ∈ ps.tail, p.gap ≠ []) :
    exprTokens (Printed.text platform ps trail) =
      .ok ⟨Printed.tokensFrom platform 0 ps, (Printed.text platform ps trail).byteSize⟩ := by
  rw [exprTokens, Printed.tokensAt_text platform htrail hgaps, Nat.zero_add]

/-- A wide white space is all that keeps the sign and the equals signs apart. -/
theorem exprTokens_printed_mixed :
    let ps : List Printed := [
      ⟨[], .text "\"\\é'".toList, '\'', List.forall_mem_nil _, trivial, .inr rfl⟩,
      ⟨"\u3000".toList, .op .lt, '"', List.forall_mem_singleton.mpr rfl, trivial, .inl rfl⟩,
      ⟨"\u3000".toList, .op .eq, '"', List.forall_mem_singleton.mpr rfl, trivial, .inl rfl⟩,
      ⟨"\n".toList, .var "1é".toList, '"', List.forall_mem_singleton.mpr rfl,
        ⟨List.cons_ne_nil _ _, List.all_eq_true.mp (by decide +kernel)⟩, .inl rfl⟩,
      ⟨" ".toList, .dot, '"', List.forall_mem_singleton.mpr rfl, trivial, .inl rfl⟩,
      ⟨" ".toList, .number (.int 9223372036854775807), '"', List.forall_mem_singleton.mpr rfl,
        ⟨9223372036854775807, rfl, by decide⟩, .inl rfl⟩]
    let ts : List ExprToken := [⟨.text "\"\\é'".toList, 0⟩, ⟨.op .lt, 12⟩, ⟨.op .eq, 16⟩,
      ⟨.var "1é".toList, 19⟩, ⟨.dot, 24⟩, ⟨.number (.int 9223372036854775807), 26⟩]
    (∀ c ∈ " ".toList, Unicode.isBlank c = true) ∧ (∀ p ∈ ps.tail, p.gap ≠ []) ∧
      Printed.text .usual ps " ".toList =
        "'\"\\\\é\\''\u3000<\u3000==\n$1é . 9223372036854775807 ".toList ∧
      exprTokens (Printed.text .usual ps " ".toList) = .ok ⟨ts, 46⟩ := by
  intro ps ts
  have hblank : ∀ c ∈ " ".toList, Unicode.isBlank c = true := List.forall_mem_singleton.mpr rfl
  have hgaps : ∀ p ∈ ps.tail, p.gap ≠ [] := by simp [ps]
  refine ⟨hblank, hgaps, by decide +kernel, ?_⟩
  rw [exprTokens_printed .usual ps hblank hgaps]
  decide +kernel

end Stencil
