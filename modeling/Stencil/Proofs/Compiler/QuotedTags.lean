/- Tags that hold a string literal insert the text that the literal stands for. -/
import Stencil.Proofs.Compiler.Untagged
import Stencil.Proofs.Expr.Spelling

namespace Stencil

namespace Text

variable {quote : Char}

theorem stringRest_guarded (quote : Char) (s : Text) :
    StringRest quote (s.flatMap (guarded quote) ++ [quote]) := by
  induction s with
  | nil => exact .close
  | cons c s ih =>
    rw [List.flatMap_cons, List.append_assoc, guarded]
    split
    next => exact .escaped c ih
    next hc => exact .plain (not_or.mp hc).1 (not_or.mp hc).2 ih

theorem enclosable_inQuotes (hquote : IsQuote quote) (s : Text) : Enclosable (s.inQuotes quote) :=
  enclosable_string hquote (stringRest_guarded quote s)

theorem trim_inQuotes (hquote : IsQuote quote) (s : Text) :
    trim ([' '] ++ (s.inQuotes quote ++ [' '])) = s.inQuotes quote := by
  have hblank : ∀ d ∈ some quote, Unicode.isBlank d = false := by
    rintro _ ⟨⟩
    exact isBlank_eq_false_of_isQuote hquote
  have hspace : ∀ d ∈ [' '], Unicode.isBlank d = true := List.forall_mem_singleton.mpr rfl
  have hlast : (s.inQuotes quote).getLast? = some quote := List.getLast?_concat (l := quote :: _)
  refine trim_padded hspace hspace ?_ ?_
  · exact hblank
  · rw [hlast]
    exact hblank

end Text

section Literals

variable {quote : Char}

theorem parse_inQuotes (hquote : IsQuote quote) (s : Text) :
    Expr.parse (s.inQuotes quote) = .ok (.literal (.text s)) := by
  have htokens := tokensAt_of_reads (Lexeme.reads_inQuotes hquote s []) 0
  rw [List.append_nil] at htokens
  rw [Expr.parse, exprTokens, htokens]
  rfl

theorem Tagging.valueOf_inQuotes {g : Tagging} {s : Text} (hquote : IsQuote quote)
    (hname : g.template.tag? (s.inQuotes quote) = none) :
    g.valueOf (s.inQuotes quote) = .ok s := by
  rw [valueOf, hname, parse_inQuotes hquote]
  rfl

end Literals

namespace Compiler

/-- A tag that is written out inserts what its value comes to. -/
theorem compileTags_written_eq (c : Compiler) (t : Template) {body : Text} (kind : TagKind)
    (husual : t.own.delimiters = {}) (hbody : Enclosable body) :
    c.compileTags t (kind.written body) =
      (((c.tagging t).resolve ((c.tagging t).complete c.limits.tagDepth) body.trim).map
        ((c.tagging t).insert kind)).mapError fun cause => ⟨cause, 1⟩ := by
  have hsegments : segments (c.tagging t).template.own.delimiters (kind.written body) =
      .ok [kind.segment body] :=
    husual.symm ▸ segments_written hbody kind
  rw [compileTags, Tagging.run_whole_tag _ hsegments, TagKind.segment, Tagging.replace_tag]
  rfl

/-- A tag that is written out comes to its value when no tag is in that. -/
theorem compileTags_written (c : Compiler) (t : Template) {body value : Text} (kind : TagKind)
    (husual : t.own.delimiters = {}) (hbody : Enclosable body)
    (hvalue : (c.tagging t).valueOf body.trim = .ok value)
    (huntagged : containsTag {} value = false) :
    c.compileTags t (kind.written body) = .ok ((c.tagging t).insert kind value) := by
  rw [c.compileTags_written_eq t kind husual hbody,
    Tagging.resolve_of_untagged hvalue (husual.symm ▸ huntagged)]
  rfl

/-- A tag with a string literal in it inserts the text that was put in quotes, whatever stands in it
besides tags. -/
theorem compileTags_inQuotes (c : Compiler) (t : Template) {quote : Char} {s : Text}
    (hquote : IsQuote quote) (husual : t.own.delimiters = {})
    (hname : t.tag? (s.inQuotes quote) = none) (huntagged : containsTag {} s = false) :
    c.compileTags t ("\x7b\x7b! ".toList ++ (s.inQuotes quote ++ " !\x7d\x7d".toList)) = .ok s ∧
      c.compileTags t ("\x7b\x7b ".toList ++ (s.inQuotes quote ++ " \x7d\x7d".toList)) =
        .ok (c.escape s) := by
  -- The spaces are part of the tag, and trimming the body takes them off again.
  have hspace : Enclosable [' '] := enclosable_of_isBlank (List.forall_mem_singleton.mpr rfl)
  have hbody : Enclosable ([' '] ++ (s.inQuotes quote ++ [' '])) :=
    hspace.append ((Text.enclosable_inQuotes hquote s).append hspace)
  have hvalue : (c.tagging t).valueOf (Text.trim ([' '] ++ (s.inQuotes quote ++ [' ']))) =
      .ok s := by
    rw [Text.trim_inQuotes hquote]
    exact Tagging.valueOf_inQuotes hquote hname
  have hwritten : ∀ kind : TagKind, kind.written ([' '] ++ (s.inQuotes quote ++ [' '])) =
      (kind.usual.opening ++ [' ']) ++ (s.inQuotes quote ++ ' ' :: kind.usual.closing) := by
    intro kind
    simp only [TagKind.written, List.append_assoc, List.cons_append, List.nil_append]
  have hout := fun kind => c.compileTags_written t kind husual hbody hvalue huntagged
  exact ⟨(congrArg _ (hwritten .unsanitized)).symm.trans (hout .unsanitized),
    (congrArg _ (hwritten .sanitized)).symm.trans (hout .sanitized)⟩

/-- There are both closings in the string, both quotes, a directive over two lines, a backslash, and
an opening that nothing closes. -/
theorem compileTags_inQuotes_markup :
    let c : Compiler := { Compiler.usual with limits := ⟨0, 0⟩ }
    let s := "!\x7d\x7d\\<% show(\"\n') %>\x7b\x7b".toList
    let written := "\"!\x7d\x7d\\\\<% show(\\\"\n') %>\x7b\x7b\"".toList
    let escaped := "!\x7d\x7d\\&lt;% show(&quot;\n&#039;) %&gt;\x7b\x7b".toList
    IsQuote '"' ∧ Text.inQuotes '"' s = written ∧ twofold.own.delimiters = {} ∧
      twofold.tag? written = none ∧ containsTag {} s = false ∧
      c.compileTags twofold ("\x7b\x7b! ".toList ++ (written ++ " !\x7d\x7d".toList)) = .ok s ∧
      c.compileTags twofold ("\x7b\x7b ".toList ++ (written ++ " \x7d\x7d".toList)) =
        .ok escaped := by
  intro c s written escaped
  have hquote : IsQuote '"' := .inl rfl
  have hwritten : Text.inQuotes '"' s = written := by decide +kernel
  have hname : twofold.tag? written = none := by decide +kernel
  have huntagged : containsTag {} s = false := by decide +kernel
  have hescape : c.escape s = escaped := by decide +kernel
  obtain ⟨hraw, hescaped⟩ :=
    compileTags_inQuotes c twofold hquote rfl (hwritten ▸ hname) huntagged
  rw [hwritten] at hraw hescaped
  exact ⟨hquote, hwritten, rfl, hname, huntagged, hraw, hescaped.trans (congrArg _ hescape)⟩

end Compiler

end Stencil
