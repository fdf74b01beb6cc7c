/- What the moves of a scan come to where it stands at the end of a character. -/
import Stencil.Proofs.Segment.Spans
import Stencil.Proofs.Text.Slices
import Stencil.Segment.Scan

namespace Stencil

theorem Text.findOffset?_getD (p : Char → Bool) (u : Text) :
    (u.findOffset? fun c => !p c).getD u.byteSize = byteSize (u.takeWhile p) := by
  induction u with
  | nil => rfl
  | cons c cs ih =>
    rw [findOffset?, List.takeWhile_cons]
    cases p c with
    | false => rfl
    | true =>
      rw [if_pos rfl, if_neg (by decide), byteSize_cons, byteSize_cons, ← ih]
      cases findOffset? (fun c => !p c) cs <;> rfl

namespace Segment

/-- The tokens between the delimiters of a region whose body starts at a byte offset. -/
def bodyTokens (line start : Nat) : Segment → List Token
  | .directive _ lead name argument _ =>
    let b := start + lead.byteSize
    let c := b + name.byteSize
    ⟨.directiveName, name, line, b, c⟩ ::
      match expression? argument with
      | some e => [⟨.expression, e, line, c, c + argument.byteSize⟩]
      | none => []
  | .tag _ _ body _ => [⟨.expression, body.trim, line, start, start + body.byteSize⟩]
  | _ => []

end Segment

/-- The token of the opening, at a byte offset. -/
def Opener.openingToken (o : Opener) (line offset : Nat) : Token :=
  ⟨.opening o.kind, o.opening, line, offset, offset + o.opening.byteSize⟩

def Opener.closingToken (o : Opener) (line offset : Nat) : Token :=
  ⟨.closing o.kind, o.closing, line, offset, offset + o.closing.byteSize⟩

theorem tokens_of_regionSegment {o : Opener} {line : Nat} {body : Text} {s : Segment}
    (h : regionSegment o line body = .ok s) (offset : Nat) :
    s.tokens line offset = o.openingToken line offset ::
      (s.bodyTokens line (offset + o.opening.byteSize) ++
        [o.closingToken (line + (o.opening ++ body).newlines)
          (offset + o.opening.byteSize + body.byteSize)]) := by
  unfold regionSegment at h
  split at h
  next kind hkind =>
    cases h
    rw [Opener.openingToken, Opener.closingToken, hkind]
    rfl
  next hkind =>
    dsimp only at h
    split at h
    next => cases h
    next =>
      cases h
      have hbody : body.takeWhile Unicode.isBlank ++
          ((body.dropWhile Unicode.isBlank).takeWhile Unicode.isWord ++
            (body.dropWhile Unicode.isBlank).dropWhile Unicode.isWord) = body := by
        rw [List.takeWhile_append_dropWhile, List.takeWhile_append_dropWhile]
      generalize body.takeWhile Unicode.isBlank = lead at hbody ⊢
      generalize (body.dropWhile Unicode.isBlank).takeWhile Unicode.isWord = name at hbody ⊢
      generalize (body.dropWhile Unicode.isBlank).dropWhile Unicode.isWord = argument at hbody ⊢
      subst hbody
      rw [Opener.openingToken, Opener.closingToken, hkind, Text.byteSize_append,
        Text.byteSize_append, ← Nat.add_assoc, ← Nat.add_assoc]
      rfl

namespace Scan

variable {t u rest : Text} {c : Char} {s : Scan}

/-- Goes behind a text. -/
def passText (u : Text) (s : Scan) : Scan :=
  { s with offset := s.offset + u.byteSize, line := s.line + u.newlines }

theorem passText_passText (u v : Text) (s : Scan) :
    (s.passText u).passText v = s.passText (u ++ v) := by
  simp only [passText, Text.byteSize_append, Text.newlines_append, Nat.add_assoc]

theorem pass_eq_passText (c : Char) (s : Scan) : s.pass c = s.passText [c] := by
  rw [pass, Text.lineAfter_eq]
  rfl

theorem rest?_passText (h : s.rest? t = some (u ++ rest)) :
    (s.passText u).rest? t = some rest := (Text.slice?_append h).2

theorem rest?_pass (h : s.rest? t = some (c :: rest)) : (s.pass c).rest? t = some rest :=
  Text.slice?_tail h

theorem byteSize_of_rest? (h : s.rest? t = some rest) :
    t.byteSize = s.offset + rest.byteSize := Text.stop_of_slice? h

theorem ne_nil_of_rest? (h : s.rest? t = some rest) : s.offset < t.byteSize ↔ rest ≠ [] := by
  rw [byteSize_of_rest? h]
  constructor
  · rintro hlt rfl
    exact Nat.lt_irrefl _ hlt
  · exact fun hne => Nat.lt_add_of_pos_right (Text.byteSize_pos hne)

theorem advanceChar?_cons (h : s.rest? t = some (c :: rest)) :
    s.advanceChar? t = some (s.pass c) := by
  rw [advanceChar?, h]
  rfl

theorem advanceBytes?_append (h : s.rest? t = some (u ++ rest)) :
    s.advanceBytes? t u.byteSize = some (s.passText u) := by
  have hsize := byteSize_of_rest? h
  rw [Text.byteSize_append] at hsize
  rw [advanceBytes?, Nat.min_eq_left (by omega), (Text.slice?_append h).1]
  rfl

theorem advanceWhile?_eq (p : Char → Bool) (h : s.rest? t = some rest) :
    s.advanceWhile? t p = some (s.passText (rest.takeWhile p)) := by
  induction rest generalizing s with
  | nil =>
    rw [advanceWhile?]
    split
    next hnone => cases h.symm.trans hnone
    next => rfl
    next hcons => cases h.symm.trans hcons
  | cons c rest ih =>
    rw [advanceWhile?]
    split
    next hnone => cases h.symm.trans hnone
    next hnil => cases h.symm.trans hnil
    next hcons =>
      cases h.symm.trans hcons
      rw [List.takeWhile_cons]
      split
      · rw [ih (rest?_pass h), pass_eq_passText, passText_passText]
        rfl
      · rfl

/-- Of a body the tokens are added that its segment has, or none if it is no segment. -/
theorem addBody?_eq {o : Opener} {body : Text} {start stop : Nat}
    (hbody : t.slice? start stop = some body) (line : Nat) (s : Scan) :
    s.addBody? t ⟨o.kind, o.closing, start, line⟩ stop =
      some ((regionSegment o line body).map fun segment =>
        { s with tokens := s.tokens ++ segment.bodyTokens line start }) := by
  rw [addBody?, hbody, Option.bind_some, regionSegment]
  dsimp only
  cases hkind : o.kind with
  | tag kind =>
    rw [Text.stop_of_slice? hbody]
    rfl
  | directive =>
    dsimp only
    have hlead := Text.byteSize_takeWhile_add Unicode.isBlank body
    have hinner := Text.slice?_dropWhile Unicode.isBlank hbody
    have hname := Text.slice?_takeWhile Unicode.isWord hinner
    have hargument := Text.slice?_dropWhile Unicode.isWord hinner
    obtain rfl := Text.stop_of_slice? hinner
    rw [Text.trimStart, ← hlead, Nat.add_sub_cancel_right, hinner, Option.bind_some,
      Nat.add_sub_cancel_left, Text.findOffset?_getD]
    by_cases hnil : (body.dropWhile Unicode.isBlank).takeWhile Unicode.isWord = []
    · rw [hnil]
      rfl
    · have hpos := Text.byteSize_pos hnil
      have hend := Text.stop_of_slice? hargument
      rw [if_neg (Nat.ne_of_gt hpos), if_neg (by rwa [List.isEmpty_iff]), hname, Option.bind_some,
        hargument, Option.map_some, Except.map, Segment.bodyTokens, Segment.expression?, ← hend]
      split
      · rfl
      · rw [add, add, List.append_assoc]
        rfl

end Scan

end Stencil
