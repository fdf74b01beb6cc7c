/- Escaping a value by a call in an unsanitized tag. -/
import Stencil.Proofs.Compiler.QuotedTags
import Stencil.Proofs.Segment.Escaping

namespace Stencil

/-- The call of a function with one argument, as it is written. -/
def Text.called (name argument : Text) : Text := name ++ ['('] ++ (argument ++ [')'])

section Parsing

variable {name x : Text}

theorem parse_var (hx : x ≠ []) (hword : ∀ c ∈ x, Unicode.isWord c = true) :
    Expr.parse ('$' :: x) = .ok (.var x) := by
  have hreads : (Lexeme.var x).Reads ('$' :: x) [] := Lexeme.reads_var hx hword nofun
  rw [Progress.parse_eq_parseOn, ← List.append_nil ('$' :: x),
    Progress.parseOn_of_reads hreads rfl, Progress.parseOn_nil]
  rfl

theorem parse_called_var (hname : name.IsName) (hx : x ≠ [])
    (hword : ∀ c ∈ x, Unicode.isWord c = true) :
    Expr.parse (name.called ('$' :: x)) = .ok (.call name [.var x]) := by
  have hident : (Lexeme.ident name).Reads name ('(' :: ('$' :: x ++ [')'])) :=
    Lexeme.reads_ident hname (by rintro _ ⟨⟩; decide +kernel)
  have hparen : Lexeme.openParen.Reads ['('] ('$' :: x ++ [')']) :=
    ⟨_, _, rfl, rfl, fun _ => rfl⟩
  have hvar : (Lexeme.var x).Reads ('$' :: x) [')'] :=
    Lexeme.reads_var hx hword (by rintro _ ⟨⟩; decide +kernel)
  have hclose : Lexeme.closeParen.Reads [')'] [] := ⟨_, _, rfl, rfl, fun _ => rfl⟩
  rw [Progress.parse_eq_parseOn, Text.called, List.append_assoc, List.singleton_append,
    Progress.parseOn_of_reads hident rfl, ← List.singleton_append,
    Progress.parseOn_of_reads hparen rfl, Progress.parseOn_of_reads hvar rfl,
    ← List.append_nil [')'], Progress.parseOn_of_reads hclose rfl, Progress.parseOn_nil]
  rfl

end Parsing

theorem isName_escape : Text.IsName "escape".toList :=
  ⟨'e', "scape".toList, rfl, rfl, List.all_eq_true.mp (by decide +kernel)⟩

namespace Tagging

variable {g : Tagging} {x v : Text}

theorem valueOf_var (hx : x ≠ []) (hword : ∀ c ∈ x, Unicode.isWord c = true)
    (hname : g.template.tag? ('$' :: x) = none) (hvar : g.scope.var? x = some (.text v)) :
    g.valueOf ('$' :: x) = .ok v := by
  rw [valueOf, hname, parse_var hx hword]
  simp only [Scope.eval, hvar, Value.render]

/-- A function of that name that is registered would come before the built-in one. -/
theorem valueOf_called_escape (hx : x ≠ []) (hword : ∀ c ∈ x, Unicode.isWord c = true)
    (hname : g.template.tag? (Text.called "escape".toList ('$' :: x)) = none)
    (hvar : g.scope.var? x = some (.text v))
    (hfunction : g.scope.functions.registered.get? "escape".toList = none) :
    g.valueOf (Text.called "escape".toList ('$' :: x)) = .ok (Escaper.html v) := by
  have hbuiltin : Builtin.ofName? "escape".toList = some .escape := by decide +kernel
  have hargument : g.scope.evalAll [.var x] = .ok [.text v] := by
    simp only [Scope.evalAll, Scope.eval, hvar]
    rfl
  have hcall : g.scope.callTarget "escape".toList [.text v] = .ok (.text (Escaper.html v)) := by
    rw [Scope.callTarget, Functions.resolve, hfunction, hbuiltin]
    rfl
  rw [valueOf, hname, parse_called_var isName_escape hx hword]
  simp only [Scope.eval, hargument, hcall, bind, Except.bind, Value.render]

end Tagging

/-- Escaping neither makes tags nor takes them away where there are no strings and no directives. -/
theorem containsTag_html {v : Text} (hquotes : ∀ c ∈ v, ¬ IsQuote c)
    (hdirective : ¬ "<%".toList <:+: v) : containsTag {} (Escaper.html v) = containsTag {} v := by
  have hcut : segments {} (Escaper.html v) = (segments {} v).map (List.map Segment.escaped) :=
    DelimiterSet.cutsEscaped hquotes hdirective 1
  rw [Bool.eq_iff_iff, containsTag, containsTag, Option.isSome_iff_exists,
    Option.isSome_iff_exists]
  simp only [taggedSegments?_eq_some_iff, hcut]
  cases segments {} v with
  | error e => simp [Except.map]
  | ok ss => simp [Except.map, Segment.isTagLike_escaped]

section Written

variable {name x : Text}

theorem isBlank_eq_false_of_mem_var (hword : ∀ c ∈ x, Unicode.isWord c = true) :
    ∀ c ∈ '$' :: x, Unicode.isBlank c = false :=
  List.forall_mem_cons.mpr ⟨rfl, fun c hc => Unicode.isBlank_eq_false_of_isWord (hword c hc)⟩

theorem isBlank_eq_false_of_mem_called (hname : name.IsName)
    (hword : ∀ c ∈ x, Unicode.isWord c = true) :
    ∀ c ∈ name.called ('$' :: x), Unicode.isBlank c = false := by
  have hfront : ∀ c ∈ name, Unicode.isBlank c = false := fun c hc =>
    Unicode.isBlank_eq_false_of_isWord (hname.isWord c hc)
  have hparen : ∀ c ∈ ['('], Unicode.isBlank c = false := List.forall_mem_singleton.mpr rfl
  have hclose : ∀ c ∈ [')'], Unicode.isBlank c = false := List.forall_mem_singleton.mpr rfl
  exact List.forall_mem_append.mpr ⟨List.forall_mem_append.mpr ⟨hfront, hparen⟩,
    List.forall_mem_append.mpr ⟨isBlank_eq_false_of_mem_var hword, hclose⟩⟩

theorem enclosable_var (hword : ∀ c ∈ x, Unicode.isWord c = true) : Enclosable ('$' :: x) :=
  .plain (by decide) (by decide) (by decide) (enclosable_of_isWord hword)

theorem enclosable_called (hname : name.IsName) (hword : ∀ c ∈ x, Unicode.isWord c = true) :
    Enclosable (name.called ('$' :: x)) := by
  have hparen : Enclosable ['('] := .plain (by decide) (by decide) (by decide) .nil
  have hclose : Enclosable [')'] := .plain (by decide) (by decide) (by decide) .nil
  exact ((enclosable_of_isWord hname.isWord).append hparen).append
    ((enclosable_var hword).append hclose)

/-- The space on both sides of a text that starts and ends with none is trimmed away. -/
theorem trim_spaced {e : Text} (he : ∀ c ∈ e, Unicode.isBlank c = false) :
    Text.trim ([' '] ++ (e ++ [' '])) = e :=
  Text.trim_padded (List.forall_mem_singleton.mpr rfl) (List.forall_mem_singleton.mpr rfl)
    (fun c hc => he c (List.mem_of_mem_head? hc)) (fun c hc => he c (List.mem_of_mem_getLast? hc))

theorem enclosable_spaced {e : Text} (he : Enclosable e) : Enclosable ([' '] ++ (e ++ [' '])) := by
  have hspace : Enclosable [' '] := enclosable_of_isBlank (List.forall_mem_singleton.mpr rfl)
  exact hspace.append (he.append hspace)

theorem written_var (x : Text) : TagKind.sanitized.written ([' '] ++ (('$' :: x) ++ [' '])) =
    "\x7b\x7b $".toList ++ (x ++ " \x7d\x7d".toList) := by
  simp only [TagKind.written, List.append_assoc, List.cons_append]
  rfl

theorem written_called_escape (x : Text) : TagKind.unsanitized.written
    ([' '] ++ (Text.called "escape".toList ('$' :: x) ++ [' '])) =
      "\x7b\x7b! escape($".toList ++ (x ++ ") !\x7d\x7d".toList) := by
  simp only [TagKind.written, Text.called, List.append_assoc, List.cons_append]
  rfl

end Written

namespace Compiler

/-- A sanitized tag escapes what a variable holds. In an unsanitized tag the built-in function comes
to the same, unless the escaped text holds tags, which are then replaced like those in any value.
There are none in it if the text has no quotes and opens no directive. -/
theorem compileTags_escape_call (c : Compiler) (t : Template) {x v : Text}
    (husual : t.own.delimiters = {}) (hescape : c.escape = .html)
    (hfunction : c.functions.registered.get? "escape".toList = none)
    (hx : x ≠ []) (hword : ∀ d ∈ x, Unicode.isWord d = true)
    (hcall : t.tag? (Text.called "escape".toList ('$' :: x)) = none)
    (hname : t.tag? ('$' :: x) = none) (hvar : t.var? x = some (.text v))
    (huntagged : containsTag {} v = false) :
    c.compileTags t ("\x7b\x7b $".toList ++ (x ++ " \x7d\x7d".toList)) = .ok (Escaper.html v) ∧
      (containsTag {} (Escaper.html v) = false →
        c.compileTags t ("\x7b\x7b! escape($".toList ++ (x ++ ") !\x7d\x7d".toList)) =
          .ok (Escaper.html v)) ∧
      (∀ ss, taggedSegments? {} (Escaper.html v) = some ss →
        c.compileTags t ("\x7b\x7b! escape($".toList ++ (x ++ ") !\x7d\x7d".toList)) =
          ((c.tagging t).complete c.limits.tagDepth (Text.called "escape".toList ('$' :: x))
            ss).mapError fun cause => ⟨cause, 1⟩) ∧
      ((∀ d ∈ v, ¬ IsQuote d) → ¬ "<%".toList <:+: v →
        containsTag {} (Escaper.html v) = false) := by
  have hvarBody := trim_spaced (isBlank_eq_false_of_mem_var hword)
  have hcallBody := trim_spaced (isBlank_eq_false_of_mem_called isName_escape hword)
  have hvarEnclosed := enclosable_spaced (enclosable_var hword)
  have hcallEnclosed := enclosable_spaced (enclosable_called isName_escape hword)
  have hvarValue : (c.tagging t).valueOf ('$' :: x) = .ok v :=
    Tagging.valueOf_var hx hword hname hvar
  have hcallValue : (c.tagging t).valueOf (Text.called "escape".toList ('$' :: x)) =
      .ok (Escaper.html v) :=
    Tagging.valueOf_called_escape hx hword hcall hvar hfunction
  rw [← written_var, ← written_called_escape]
  refine ⟨?_, fun hplain => ?_, fun ss hss => ?_, fun hquotes hdirective => ?_⟩
  · rw [c.compileTags_written t .sanitized husual hvarEnclosed
      (hvarBody.symm ▸ hvarValue) huntagged]
    exact congrArg (fun escape => Except.ok (escape v)) hescape
  · exact c.compileTags_written t .unsanitized husual hcallEnclosed
      (hcallBody.symm ▸ hcallValue) hplain
  · rw [c.compileTags_written_eq t .unsanitized husual hcallEnclosed, hcallBody, Tagging.resolve,
      hcallValue]
    dsimp only
    rw [show (c.tagging t).template.own.delimiters = {} from husual, hss]
    dsimp only
    cases (c.tagging t).complete c.limits.tagDepth _ ss <;> rfl
  · exact (containsTag_html hquotes hdirective).trans huntagged

/-- Both values have quotes and braces. Escaping the first leaves its tag open, escaping the second
closes one. -/
def quotedBraces : Template where
  own := {
    vars := .ofList [("x".toList, .text "\"\x7b\x7b it's <b>".toList),
      ("1é".toList, .text "\x7b\x7b \" \x7d\x7d".toList)] }

theorem compileTags_escape_call_quoted :
    let c : Compiler := { Compiler.usual with limits := ⟨0, 0⟩ }
    let v := "\"\x7b\x7b it's <b>".toList
    let w := "\x7b\x7b \" \x7d\x7d".toList
    let escaped := "&quot;\x7b\x7b it&#039;s &lt;b&gt;".toList
    quotedBraces.own.delimiters = {} ∧ c.escape = .html ∧
      c.functions.registered.get? "escape".toList = none ∧
      (quotedBraces.tag? "escape($x)".toList = none ∧ quotedBraces.tag? "$x".toList = none ∧
        quotedBraces.var? "x".toList = some (.text v) ∧ containsTag {} v = false ∧
        containsTag {} escaped = false ∧
        c.compileTags quotedBraces "\x7b\x7b $x \x7d\x7d".toList = .ok escaped ∧
        c.compileTags quotedBraces "\x7b\x7b! escape($x) !\x7d\x7d".toList = .ok escaped) ∧
      quotedBraces.var? "1é".toList = some (.text w) ∧ containsTag {} w = false ∧
        c.compileTags quotedBraces "\x7b\x7b! escape($1é) !\x7d\x7d".toList =
          .error ⟨.tagTooDeep "escape($1é)".toList 0, 1⟩ := by
  intro c v w escaped
  have hv : containsTag {} v = false := by decide +kernel
  have hw : containsTag {} w = false := by decide +kernel
  have hplain : containsTag {} escaped = false := by decide +kernel
  have hescaped : Escaper.html v = escaped := by decide +kernel
  have hword : ∀ d ∈ "x".toList, Unicode.isWord d = true :=
    List.all_eq_true.mp (by decide +kernel)
  have hword' : ∀ d ∈ "1é".toList, Unicode.isWord d = true :=
    List.all_eq_true.mp (by decide +kernel)
  have htagged : taggedSegments? {} (Escaper.html w) =
      some [TagKind.sanitized.segment " &quot; ".toList] := by
    decide +kernel
  obtain ⟨hout, hcall, -⟩ := compileTags_escape_call c quotedBraces (x := "x".toList) rfl rfl rfl
    (List.cons_ne_nil _ _) hword rfl rfl rfl hv
  obtain ⟨-, -, hdeep, -⟩ := compileTags_escape_call c quotedBraces (x := "1é".toList) rfl rfl rfl
    (List.cons_ne_nil _ _) hword' rfl rfl rfl hw
  rw [hescaped] at hout hcall
  exact ⟨rfl, rfl, rfl, ⟨rfl, rfl, rfl, hv, hplain, hout, hcall hplain⟩, rfl, hw,
    hdeep _ htagged⟩

/-- The quote keeps the tag open, its entity does not. -/
theorem compileTags_escape_call_closed :
    let c : Compiler := .usual
    let v := "\x7b\x7b \" \x7d\x7d".toList
    let t : Template := ⟨{ vars := .ofList [("x".toList, .text v)] }, []⟩
    t.own.delimiters = {} ∧ c.functions.registered.get? "escape".toList = none ∧
      1 ≤ c.limits.tagDepth ∧ t.tag? "escape($x)".toList = none ∧ t.tag? "$x".toList = none ∧
      t.var? "x".toList = some (.text v) ∧ containsTag {} v = false ∧
      c.compileTags t "\x7b\x7b $x \x7d\x7d".toList = .ok "\x7b\x7b &quot; \x7d\x7d".toList ∧
      c.compileTags t "\x7b\x7b! escape($x) !\x7d\x7d".toList = .error
        ⟨.badExpression "&quot;".toList
          { kind := .unexpectedCharacter, position := 0, found := some (.shown "'&'") }, 1⟩ := by
  intro c v t
  exact ⟨rfl, rfl, by decide, rfl, rfl, rfl, by decide +kernel, by decide +kernel,
    by decide +kernel⟩

end Compiler

end Stencil
