/- Tokens come in groups, one for each passage that is not text, and stand where they say. -/
import Stencil.Proofs.Segment.Stretches
import Stencil.Proofs.Text.Slices
import Stencil.Segment.Passage

namespace Stencil

/-- The passage of a segment that starts on `line` at byte `offset`. -/
def Segment.passage (line offset : Nat) : Segment → Passage
  | .text t => .text t
  | .escapedOpening opening => .escapedOpening ('\\' :: opening) opening
  | .directive opening lead name argument closing =>
    .directive name (expression? argument) line
      (Segment.directive opening lead name argument closing).raw
  | .tag kind opening body closing =>
    .tag kind body.trim line offset (Segment.tag kind opening body closing).raw

def passagesOf (line offset : Nat) : List Segment → List Passage
  | [] => []
  | s :: ss =>
    s.passage line offset :: passagesOf (line + s.raw.newlines) (offset + s.raw.byteSize) ss

namespace Token

/-- The token stands on its line, which is counted from one by what stands in front of it. -/
def OnLine (t : Text) (k : Token) : Prop :=
  ∃ before, t.slice? 0 k.start = some before ∧ k.line = 1 + before.newlines

/-- A delimiter: its value is the text that it spans. -/
structure Delimits (t : Text) (kind : TokenKind) (k : Token) : Prop where
  kind : k.kind = kind
  value : t.slice? k.start k.stop = some k.value
  line : k.OnLine t

/-- An expression: its value is the text that it spans, trimmed, and its line that of the opening in
front of it. -/
structure Expresses (t : Text) (k opening : Token) : Prop where
  kind : k.kind = .expression
  value : ∃ x, t.slice? k.start k.stop = some x ∧ k.value = x.trim
  line : k.line = opening.line

/-- The name of a directive, on the line of the opening in front of it. -/
structure Names (t : Text) (k opening : Token) : Prop where
  kind : k.kind = .directiveName
  value : t.slice? k.start k.stop = some k.value
  line : k.line = opening.line

end Token

/-- The group of tokens that marks off a segment which starts at that offset. Text has none, and the
others are spanned piece by piece. -/
inductive Segment.MarkedBy (t : Text) (start : Nat) : Segment → List Token → Prop
  | text {u : Text} : t.slice? start (start + u.byteSize) = some u → MarkedBy t start (.text u) []
  | escapedOpening {opening : Text} {k : Token} :
      k.kind = .escapedOpening → k.value = opening → k.OnLine t → k.start = start →
      t.slice? start k.stop = some ('\\' :: opening) →
      MarkedBy t start (.escapedOpening opening) [k]
  | directive {opening lead name argument closing : Text} {o n c : Token} {e : Option Token} :
      o.Delimits t (.opening .directive) → o.value = opening → o.start = start →
      n.Names t o → n.value = name → t.slice? o.stop n.start = some lead →
      (∀ k ∈ e, k.Expresses t o ∧ k.start = n.stop ∧ k.stop = c.start) →
      e.map Token.value = Segment.expression? argument →
      t.slice? n.stop c.start = some argument →
      c.Delimits t (.closing .directive) → c.value = closing →
      MarkedBy t start (.directive opening lead name argument closing) (o :: n :: (e.toList ++ [c]))
  | tag {kind : TagKind} {opening body closing : Text} {o e c : Token} :
      o.Delimits t (.opening (.tag kind)) → o.value = opening → o.start = start →
      e.Expresses t o → e.start = o.stop → e.stop = c.start →
      t.slice? o.stop c.start = some body →
      c.Delimits t (.closing (.tag kind)) → c.value = closing →
      MarkedBy t start (.tag kind opening body closing) [o, e, c]

/-- The group of tokens that marks off a passage between two offsets. The name, expression and body
of the passage are the values of tokens, and its source is what they span from first to last. -/
inductive Passage.MarkedBy (t : Text) : Nat → Nat → Passage → List Token → Prop
  | text {start stop : Nat} {u : Text} : t.slice? start stop = some u →
      MarkedBy t start stop (.text u) []
  | escapedOpening {start stop : Nat} {raw opening : Text} {k : Token} :
      k.kind = .escapedOpening → k.OnLine t → opening = k.value → raw = '\\' :: opening →
      start = k.start → stop = k.stop → t.slice? start stop = some raw →
      MarkedBy t start stop (.escapedOpening raw opening) [k]
  | directive {start stop line : Nat} {name raw : Text} {expression : Option Text} {o n c : Token}
      {e : Option Token} : o.Delimits t (.opening .directive) → n.Names t o →
      (∀ k ∈ e, k.Expresses t o) → c.Delimits t (.closing .directive) →
      name = n.value → expression = e.map Token.value → line = o.line →
      start = o.start → stop = c.stop → t.slice? start stop = some raw →
      MarkedBy t start stop (.directive name expression line raw) (o :: n :: (e.toList ++ [c]))
  | tag {start stop line : Nat} {kind : TagKind} {body raw : Text} {o e c : Token} :
      o.Delimits t (.opening (.tag kind)) → e.Expresses t o → c.Delimits t (.closing (.tag kind)) →
      body = e.value → line = o.line → start = o.start → stop = c.stop →
      t.slice? start stop = some raw →
      MarkedBy t start stop (.tag kind body line start raw) [o, e, c]

variable {t front rear : Text}

theorem Token.onLine_of_eq {k : Token} (ht : t = front ++ rear)
    (hstart : front.byteSize = k.start) (hline : 1 + front.newlines = k.line) : k.OnLine t := by
  refine ⟨front, ?_, hline.symm⟩
  rw [← hstart, ← Nat.zero_add front.byteSize]
  exact Text.slice?_of_eq (show t = [] ++ (front ++ rear) from ht) rfl rfl

theorem Token.OnLine.eq_of_eq {k : Token} (h : k.OnLine t) (ht : t = front ++ rear)
    (hstart : k.start = front.byteSize) : k.line = 1 + front.newlines := by
  obtain ⟨before, hbefore, hline⟩ := h
  have hfront : t.slice? 0 k.start = some front :=
    Text.slice?_of_eq (show t = [] ++ (front ++ rear) from ht) rfl (by rw [hstart, Nat.zero_add])
  cases hbefore.symm.trans hfront
  exact hline

theorem Token.delimits_of_eq {kind : TokenKind} {value : Text} {line start stop : Nat}
    (ht : t = front ++ (value ++ rear)) (hline : 1 + front.newlines = line)
    (hstart : front.byteSize = start) (hstop : start + value.byteSize = stop) :
    Token.Delimits t kind ⟨kind, value, line, start, stop⟩ :=
  ⟨rfl, Text.slice?_of_eq ht hstart hstop, onLine_of_eq ht hstart hline⟩

/-- The tokens of a segment mark it off. -/
theorem Segment.markedBy_tokens {s : Segment} (ht : t = front ++ (s.raw ++ rear)) :
    s.MarkedBy t front.byteSize (s.tokens (1 + front.newlines) front.byteSize) := by
  cases s with
  | text u => exact .text (Text.slice?_of_eq ht rfl rfl)
  | escapedOpening opening =>
    refine .escapedOpening rfl rfl (Token.onLine_of_eq ht rfl rfl) rfl
      (Text.slice?_of_eq ht rfl ?_)
    rw [Segment.raw, Text.byteSize_cons, ← Nat.add_assoc]
    rfl
  | tag kind opening body closing =>
    have hopening : t = front ++ (opening ++ (body ++ (closing ++ rear))) := by
      rw [ht, Segment.raw]
      simp only [List.append_assoc]
    have hbody : t = (front ++ opening) ++ (body ++ (closing ++ rear)) := by
      rw [hopening, List.append_assoc]
    have hclosing : t = (front ++ (opening ++ body)) ++ (closing ++ rear) := by
      rw [hopening]
      simp only [List.append_assoc]
    have hinner := Text.slice?_of_eq hbody (Text.byteSize_append _ _) rfl
    refine .tag (Token.delimits_of_eq hopening rfl rfl rfl) rfl rfl ⟨rfl, ⟨body, hinner, rfl⟩, rfl⟩
      rfl rfl hinner ?_ rfl
    refine Token.delimits_of_eq hclosing ?_ ?_ rfl
    · rw [Text.newlines_append, Nat.add_assoc]
    · rw [Text.byteSize_append, Text.byteSize_append, Nat.add_assoc]
  | directive opening lead name argument closing =>
    have hopening : t =
        front ++ (opening ++ (lead ++ (name ++ (argument ++ (closing ++ rear))))) := by
      rw [ht, Segment.raw]
      simp only [List.append_assoc]
    have hlead : t = (front ++ opening) ++ (lead ++ (name ++ (argument ++ (closing ++ rear)))) := by
      rw [hopening, List.append_assoc]
    have hname : t = (front ++ (opening ++ lead)) ++ (name ++ (argument ++ (closing ++ rear))) := by
      rw [hopening]
      simp only [List.append_assoc]
    have hargument : t = (front ++ (opening ++ (lead ++ name))) ++
        (argument ++ (closing ++ rear)) := by
      rw [hopening]
      simp only [List.append_assoc]
    have hclosing : t = (front ++ (opening ++ (lead ++ (name ++ argument)))) ++
        (closing ++ rear) := by
      rw [hopening]
      simp only [List.append_assoc]
    have hbefore := Text.slice?_of_eq hlead (Text.byteSize_append _ _) rfl
    have hinner := Text.slice?_of_eq hname rfl rfl
    have hinner' := Text.slice?_of_eq hargument rfl rfl
    simp only [Text.byteSize_append, ← Nat.add_assoc] at hinner hinner'
    have hopens : Token.Delimits t (.opening .directive) ⟨.opening .directive, opening,
        1 + front.newlines, front.byteSize, front.byteSize + opening.byteSize⟩ :=
      Token.delimits_of_eq hopening rfl rfl rfl
    have hcloses : Token.Delimits t (.closing .directive) ⟨.closing .directive, closing,
        1 + front.newlines + (opening ++ (lead ++ (name ++ argument))).newlines,
        front.byteSize + opening.byteSize + lead.byteSize + name.byteSize + argument.byteSize,
        front.byteSize + opening.byteSize + lead.byteSize + name.byteSize + argument.byteSize +
          closing.byteSize⟩ := by
      refine Token.delimits_of_eq hclosing ?_ ?_ rfl
      · rw [Text.newlines_append, Nat.add_assoc]
      · simp only [Text.byteSize_append, Nat.add_assoc]
    rw [Segment.tokens]
    cases hexpression : Segment.expression? argument with
    | none =>
      exact .directive (e := none) hopens rfl rfl ⟨rfl, hinner, rfl⟩ rfl hbefore (by simp)
        hexpression.symm hinner' hcloses rfl
    | some x =>
      have hx : x = argument.trim := by
        unfold Segment.expression? at hexpression
        split at hexpression
        next => cases hexpression
        next => exact (Option.some.inj hexpression).symm
      refine .directive (e := some _) hopens rfl rfl ⟨rfl, hinner, rfl⟩ rfl hbefore
        (fun k hk => ?_) hexpression.symm hinner' hcloses rfl
      cases hk
      exact ⟨⟨rfl, ⟨argument, hinner', hx⟩, rfl⟩, rfl, rfl⟩

/-- What marks a segment off marks its passage off. -/
theorem Segment.MarkedBy.passage {s : Segment} {ks : List Token}
    (ht : t = front ++ (s.raw ++ rear)) (h : s.MarkedBy t front.byteSize ks) :
    (s.passage (1 + front.newlines) front.byteSize).MarkedBy t front.byteSize
      (front.byteSize + s.raw.byteSize) ks := by
  have hraw : t.slice? front.byteSize (front.byteSize + s.raw.byteSize) = some s.raw :=
    Text.slice?_of_eq ht rfl rfl
  cases h with
  | text => exact .text hraw
  | escapedOpening hkind hvalue hline hstart hslice =>
    have hstop := Text.stop_of_slice? hslice
    exact .escapedOpening hkind hline hvalue.symm rfl hstart.symm hstop.symm hraw
  | tag ho hopening hstart he hestart hestop hbody hc hclosing =>
    subst hopening hclosing
    obtain ⟨x, hx, hvalue⟩ := he.value
    rw [hestart, hestop, hbody] at hx
    cases hx
    have hstop := Text.stop_of_slice? hc.value
    rw [Text.stop_of_slice? hbody, Text.stop_of_slice? ho.value, hstart] at hstop
    refine .tag ho he hc hvalue.symm (ho.line.eq_of_eq ht hstart).symm hstart.symm ?_ hraw
    simp only [hstop, Segment.raw, Text.byteSize_append, Nat.add_assoc]
  | directive ho hopening hstart hn hname hlead he hexpression hargument hc hclosing =>
    subst hopening hname hclosing
    have hstop := Text.stop_of_slice? hc.value
    rw [Text.stop_of_slice? hargument, Text.stop_of_slice? hn.value, Text.stop_of_slice? hlead,
      Text.stop_of_slice? ho.value, hstart] at hstop
    refine .directive ho hn (fun k hk => (he k hk).1) hc rfl hexpression.symm
      (ho.line.eq_of_eq ht hstart).symm hstart.symm ?_ hraw
    simp only [hstop, Segment.raw, Text.byteSize_append, Nat.add_assoc]

/-- The tokens of a segment mark its passage off. -/
theorem markedBy_tokens {s : Segment} (ht : t = front ++ (s.raw ++ rear)) :
    Passage.MarkedBy t front.byteSize (front.byteSize + s.raw.byteSize)
      (s.passage (1 + front.newlines) front.byteSize)
      (s.tokens (1 + front.newlines) front.byteSize) :=
  (Segment.markedBy_tokens ht).passage ht

/-- The token ends where the other one starts, or in front of that. -/
def Token.Precedes (k l : Token) : Prop := k.stop ≤ l.start

theorem bounds_of_mem_tokens {s : Segment} {line offset : Nat} {k : Token}
    (hk : k ∈ s.tokens line offset) :
    offset ≤ k.start ∧ k.start ≤ k.stop ∧ k.stop ≤ offset + s.raw.byteSize := by
  cases s with
  | text u => cases hk
  | escapedOpening opening =>
    obtain rfl := List.mem_singleton.mp hk
    simp only [Segment.raw, Text.byteSize_cons, show '\\'.utf8Size = 1 from rfl]
    omega
  | tag kind opening body closing =>
    simp only [Segment.tokens, List.mem_cons, List.not_mem_nil, or_false] at hk
    simp only [Segment.raw, Text.byteSize_append]
    rcases hk with rfl | rfl | rfl <;> dsimp only <;> omega
  | directive opening lead name argument closing =>
    simp only [Segment.tokens, List.mem_cons, List.mem_append, List.not_mem_nil, or_false] at hk
    simp only [Segment.raw, Text.byteSize_append]
    rcases hk with rfl | rfl | hexpression | rfl
    · dsimp only
      omega
    · dsimp only
      omega
    · split at hexpression
      next e _ =>
        obtain rfl := List.mem_singleton.mp hexpression
        dsimp only
        omega
      next => cases hexpression
    · dsimp only
      omega

theorem pairwise_tokens (s : Segment) (line offset : Nat) :
    (s.tokens line offset).Pairwise Token.Precedes := by
  cases s with
  | text u => exact .nil
  | escapedOpening opening => exact List.pairwise_singleton _ _
  | tag kind opening body closing =>
    simp only [Segment.tokens, List.pairwise_cons, List.mem_cons, List.not_mem_nil, or_false,
      forall_eq_or_imp, forall_eq, Token.Precedes]
    simp
  | directive opening lead name argument closing =>
    rw [Segment.tokens]
    cases Segment.expression? argument with
    | none =>
      simp [Token.Precedes]
      omega
    | some e =>
      simp [Token.Precedes]
      omega

theorem pairwise_tokensFrom (ss : List Segment) (line offset : Nat) :
    (tokensFrom line offset ss).Pairwise Token.Precedes ∧
      ∀ k ∈ tokensFrom line offset ss, offset ≤ k.start := by
  induction ss generalizing line offset with
  | nil => exact ⟨.nil, nofun⟩
  | cons s ss ih =>
    obtain ⟨hpairs, hstart⟩ := ih (line + s.raw.newlines) (offset + s.raw.byteSize)
    rw [tokensFrom]
    constructor
    · refine List.pairwise_append.mpr ⟨pairwise_tokens s line offset, hpairs, ?_⟩
      intro k hk l hl
      exact Nat.le_trans (bounds_of_mem_tokens hk).2.2 (hstart l hl)
    · refine List.forall_mem_append.mpr ⟨fun k hk => (bounds_of_mem_tokens hk).1, fun k hk => ?_⟩
      exact Nat.le_trans (Nat.le_add_right _ _) (hstart k hk)

/-- A token spans a text. -/
theorem exists_slice_of_markedBy {start stop : Nat} {p : Passage} {ks : List Token}
    (h : p.MarkedBy t start stop ks) : ∀ k ∈ ks, ∃ x, t.slice? k.start k.stop = some x := by
  cases h with
  | text => nofun
  | escapedOpening _ _ _ _ hstart hstop hraw =>
    rw [hstart, hstop] at hraw
    exact List.forall_mem_singleton.mpr ⟨_, hraw⟩
  | tag ho he hc =>
    obtain ⟨x, hx, -⟩ := he.value
    simp only [List.forall_mem_cons]
    exact ⟨⟨_, ho.value⟩, ⟨x, hx⟩, ⟨_, hc.value⟩, nofun⟩
  | directive ho hn he hc =>
    simp only [List.forall_mem_cons, List.forall_mem_append, Option.mem_toList]
    refine ⟨⟨_, ho.value⟩, ⟨_, hn.value⟩, fun k hk => ?_, ⟨_, hc.value⟩, nofun⟩
    obtain ⟨x, hx, -⟩ := (he k hk).value
    exact ⟨x, hx⟩

theorem exists_groups (ss : List Segment) (ht : t = front ++ source ss) :
    ∃ groups : List (Passage × List Token),
      (∀ g ∈ groups, ∃ start stop, g.1.MarkedBy t start stop g.2) ∧
      groups.map Prod.fst = passagesOf (1 + front.newlines) front.byteSize ss ∧
      groups.flatMap Prod.snd = tokensFrom (1 + front.newlines) front.byteSize ss := by
  induction ss generalizing front with
  | nil => exact ⟨[], nofun, rfl, rfl⟩
  | cons s ss ih =>
    have hrest : t = (front ++ s.raw) ++ source ss := by
      rw [ht, source_cons, List.append_assoc]
    obtain ⟨groups, hmarked, hpassages, htokens⟩ := ih hrest
    rw [Text.newlines_append, Text.byteSize_append, ← Nat.add_assoc] at hpassages htokens
    rw [source_cons] at ht
    refine ⟨(s.passage _ _, s.tokens _ _) :: groups,
      List.forall_mem_cons.mpr ⟨⟨_, _, markedBy_tokens ht⟩, hmarked⟩, ?_, ?_⟩
    · rw [List.map_cons, hpassages, passagesOf]
    · rw [List.flatMap_cons, htokens, tokensFrom]

end Stencil
