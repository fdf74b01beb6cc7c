/- Tags as they are written with the usual delimiters, and what can be written in them. -/
import Stencil.Proofs.Segment.Concatenation
import Stencil.Proofs.Segment.Strings

namespace Stencil

namespace Unicode

/-- The points of a set that ends somewhere, range by range. -/
def CodeSet.points : CodeSet → List Nat
  | first :: stop :: rest => List.range' first (stop - first) ++ CodeSet.points rest
  | _ => []

theorem CodeSet.mem_points {s : CodeSet} {n : Nat} (hs : s.length % 2 = 0) (h : s.holds n = true) :
    n ∈ s.points := by
  induction s using CodeSet.points.induct with
  | case1 first stop rest ih =>
    rw [CodeSet.points, List.mem_append, List.mem_range'_1]
    rcases Nat.lt_or_ge n first with hfirst | hfirst
    · rw [CodeSet.holds_of_lt hfirst] at h
      cases h
    · rcases Nat.lt_or_ge n stop with hstop | hstop
      · exact .inl ⟨hfirst, by omega⟩
      · rw [CodeSet.holds_of_le hfirst, CodeSet.holds_of_le hstop, Bool.not_not] at h
        rw [List.length_cons, List.length_cons] at hs
        exact .inr (ih (by omega) h)
  | case2 s hshort =>
    match s, hs, h with
    | [], _, h => cases h
    | [_], hs, _ => cases hs
    | first :: stop :: rest, _, _ => exact absurd rfl (hshort first stop rest)

/-- White space is no part of a name. -/
theorem isBlank_eq_false_of_isWord {c : Char} (h : isWord c = true) : isBlank c = false := by
  have hpoints : ∀ n ∈ blanks.points,
      (letters.holds n || numerals.holds n || n == 0x5f) = false := by
    decide +kernel
  refine Bool.eq_false_iff.mpr fun hblank => ?_
  have hnone := hpoints c.toNat (CodeSet.mem_points rfl hblank)
  have hunderscore : (c == '_') = (c.toNat == 0x5f) := by
    rw [Bool.eq_iff_iff, beq_iff_eq, beq_iff_eq, ← Char.toNat_inj]
    rfl
  rw [isWord, isLetter, isNumeral, hunderscore, hnone] at h
  cases h

end Unicode

namespace Text

/-- White space around a text that begins and ends with something else is trimmed away. -/
theorem trim_padded {lead core trail : Text} (hlead : ∀ c ∈ lead, Unicode.isBlank c = true)
    (htrail : ∀ c ∈ trail, Unicode.isBlank c = true)
    (hfirst : ∀ c ∈ core.head?, Unicode.isBlank c = false)
    (hlast : ∀ c ∈ core.getLast?, Unicode.isBlank c = false) :
    trim (lead ++ (core ++ trail)) = core := by
  have hkeep : ∀ {t : Text}, (∀ c ∈ t.head?, Unicode.isBlank c = false) →
      t.dropWhile Unicode.isBlank = t := by
    intro t ht
    cases t with
    | nil => rfl
    | cons c cs => exact List.dropWhile_cons_of_neg (by simp [ht c rfl])
  rw [trim, trimStart, List.dropWhile_append_of_pos hlead, trimEnd]
  cases core with
  | nil =>
    rw [List.nil_append, ← List.append_nil trail, List.dropWhile_append_of_pos htrail]
    rfl
  | cons c cs =>
    have hstart : ((c :: cs) ++ trail).dropWhile Unicode.isBlank = (c :: cs) ++ trail :=
      hkeep hfirst
    have hend : (c :: cs).reverse.dropWhile Unicode.isBlank = (c :: cs).reverse :=
      hkeep (List.head?_reverse ▸ hlast)
    rw [hstart, List.reverse_append, List.dropWhile_append_of_pos (by simpa using htrail), hend,
      List.reverse_reverse]

/-- A name as it stands in expressions. -/
def IsName (t : Text) : Prop :=
  ∃ c cs, t = c :: cs ∧ Unicode.isWordStart c = true ∧ ∀ d ∈ cs, Unicode.isWord d = true

theorem IsName.isWord {t : Text} (h : t.IsName) : ∀ c ∈ t, Unicode.isWord c = true := by
  obtain ⟨c, cs, rfl, hc, hcs⟩ := h
  exact List.forall_mem_cons.mpr ⟨Unicode.isWord_of_isWordStart hc, hcs⟩

end Text

/-- Text that can be written in a tag: outside its strings nothing in it begins like a closing, or
like what makes a tag unsanitized. -/
inductive Enclosable : Text → Prop
  | nil : Enclosable []
  | plain {c t} : ¬ IsQuote c → c ≠ '!' → c ≠ '\x7d' → Enclosable t → Enclosable (c :: t)
  | string {quote s t} : IsQuote quote → StringRest quote s → Enclosable t →
      Enclosable (quote :: (s ++ t))

theorem Enclosable.append {t u : Text} (ht : Enclosable t) (hu : Enclosable u) :
    Enclosable (t ++ u) := by
  induction ht with
  | nil => exact hu
  | plain hc hbang hbrace _ ih => exact .plain hc hbang hbrace ih
  | string hquote hs _ ih =>
    rw [List.cons_append, List.append_assoc]
    exact .string hquote hs ih

theorem enclosable_of_isBlank {t : Text} (h : ∀ c ∈ t, Unicode.isBlank c = true) :
    Enclosable t := by
  induction t with
  | nil => exact .nil
  | cons c cs ih =>
    obtain ⟨hc, hcs⟩ := List.forall_mem_cons.mp h
    refine .plain (not_isQuote_of_isBlank hc) ?_ ?_ (ih hcs) <;> rintro rfl <;> cases hc

theorem enclosable_of_isWord {t : Text} (h : ∀ c ∈ t, Unicode.isWord c = true) :
    Enclosable t := by
  induction t with
  | nil => exact .nil
  | cons c cs ih =>
    obtain ⟨hc, hcs⟩ := List.forall_mem_cons.mp h
    refine .plain (not_isQuote_of_isWord hc) ?_ ?_ (ih hcs) <;> rintro rfl <;> revert hc <;> decide

theorem enclosable_string {quote : Char} {s : Text} (hquote : IsQuote quote)
    (hs : StringRest quote s) : Enclosable (quote :: s) := by
  have hstring := Enclosable.string hquote hs .nil
  rwa [List.append_nil] at hstring

/-- The lexer goes through a string whatever stands in it. -/
theorem bodyBefore_string {quote : Char} {s : Text} (hquote : IsQuote quote)
    (hs : StringRest quote s) (closing : Text) (line opened : Nat) (t : Text) :
    bodyBefore closing (.quoted quote opened) line (s ++ t) =
      (bodyBefore closing .code (line + s.newlines) t).map (s ++ ·) := by
  have hbackslash : quote ≠ '\\' := by
    rcases hquote with rfl | rfl <;> decide
  induction hs generalizing line with
  | close =>
    rw [List.singleton_append, bodyBefore, if_neg (by simp), BodyState.next, if_neg hbackslash,
      if_pos rfl, Text.lineAfter_eq]
    rfl
  | @escaped s c _ ih =>
    rw [List.cons_append, List.cons_append, bodyBefore, if_neg (by simp), BodyState.next,
      if_pos rfl, bodyBefore, if_neg (by simp), BodyState.next, ih, Text.lineAfter_eq,
      Text.lineAfter_eq, Text.newlines_cons '\\' (c :: s), Text.newlines_cons c s,
      Nat.add_assoc, Nat.add_assoc, Outcome.map_map, Outcome.map_map]
    rfl
  | @plain c s hne hplain _ ih =>
    rw [List.cons_append, bodyBefore, if_neg (by simp), BodyState.next, if_neg hplain, if_neg hne,
      ih, Text.lineAfter_eq, Text.newlines_cons c s, Nat.add_assoc, Outcome.map_map]
    rfl

namespace TagKind

/-- The delimiters that tags have unless others are set. -/
def usual : TagKind → Delimiters
  | .sanitized => ⟨"\x7b\x7b".toList, "\x7d\x7d".toList⟩
  | .unsanitized => ⟨"\x7b\x7b!".toList, "!\x7d\x7d".toList⟩

/-- A tag as it is written with these. -/
def written (kind : TagKind) (body : Text) : Text :=
  kind.usual.opening ++ (body ++ kind.usual.closing)

def segment (kind : TagKind) (body : Text) : Segment :=
  .tag kind kind.usual.opening body kind.usual.closing

end TagKind

variable {body : Text}

theorem Enclosable.bodyBefore (h : Enclosable body) (kind : TagKind) (line : Nat) :
    bodyBefore kind.usual.closing .code line (body ++ kind.usual.closing) = .ok body := by
  have hstarts : ∃ d ds, kind.usual.closing = d :: ds ∧ (d = '!' ∨ d = '\x7d') := by
    cases kind
    · exact ⟨_, _, rfl, .inr rfl⟩
    · exact ⟨_, _, rfl, .inl rfl⟩
  obtain ⟨d, ds, hclosing, hd⟩ := hstarts
  rw [hclosing]
  have hstep : ∀ {c : Char} {t : Text} {line : Nat}, c ≠ d →
      Stencil.bodyBefore (d :: ds) .code line (c :: t) =
        (Stencil.bodyBefore (d :: ds) (BodyState.code.next line c) (Text.lineAfter line c) t).map
          (c :: ·) := by
    intro c t line hc
    rw [Stencil.bodyBefore, if_neg]
    rintro ⟨-, hstarts⟩
    exact hc (List.cons_prefix_cons.mp (List.isPrefixOf_iff_prefix.mp hstarts)).1.symm
  induction h generalizing line with
  | nil =>
    rw [List.nil_append, Stencil.bodyBefore, if_pos]
    exact ⟨rfl, List.isPrefixOf_iff_prefix.mpr List.prefix_rfl⟩
  | @plain c t hc hbang hbrace _ ih =>
    have hne : c ≠ d := by rcases hd with rfl | rfl <;> assumption
    rw [List.cons_append, hstep hne, BodyState.next, if_neg hc, ih]
    rfl
  | @string quote s t hquote hs _ ih =>
    have hne : quote ≠ d := by rcases hquote with rfl | rfl <;> rcases hd with rfl | rfl <;> decide
    rw [List.cons_append, List.append_assoc, hstep hne, BodyState.next, if_pos hquote,
      bodyBefore_string hquote hs, ih]
    rfl

/-- A sanitized tag does not begin like an unsanitized one. -/
theorem Enclosable.not_prefix_written (h : Enclosable body) :
    ¬ TagKind.unsanitized.usual.opening <+: TagKind.sanitized.written body := by
  have hhead : ∀ {c : Char} {t : Text}, c ≠ '!' → ¬ ['!'] <+: c :: t :=
    fun hc hstarts => hc (List.cons_prefix_cons.mp hstarts).1.symm
  show ¬ "\x7b\x7b".toList ++ ['!'] <+: "\x7b\x7b".toList ++ (body ++ "\x7d\x7d".toList)
  rw [List.prefix_append_right_inj]
  cases h with
  | nil => exact hhead (by decide)
  | plain _ hbang _ _ => exact hhead hbang
  | string hquote _ _ => exact hhead (by rcases hquote with rfl | rfl <;> decide)

theorem Enclosable.matchOpener? (h : Enclosable body) (kind : TagKind) :
    matchOpener? ({} : DelimiterSet).openers (kind.written body) =
      some ⟨.tag kind, kind.usual.opening, kind.usual.closing⟩ := by
  have hopeners : ({} : DelimiterSet).openers =
      [⟨.tag .unsanitized, "\x7b\x7b!".toList, "!\x7d\x7d".toList⟩,
        ⟨.directive, "<%".toList, "%>".toList⟩,
        ⟨.tag .sanitized, "\x7b\x7b".toList, "\x7d\x7d".toList⟩] := rfl
  cases kind with
  | unsanitized => rfl
  | sanitized =>
    rw [hopeners, Stencil.matchOpener?, List.find?_cons_of_neg]
    · rfl
    · exact mt List.isPrefixOf_iff_prefix.mp h.not_prefix_written

/-- A tag that is written out is cut as this tag alone. -/
theorem segments_written (h : Enclosable body) (kind : TagKind) :
    segments {} (kind.written body) = .ok [kind.segment body] := by
  have hopens : ({} : DelimiterSet).OpensRegion ⟨.tag kind, kind.usual.opening, kind.usual.closing⟩
      (kind.written body) :=
    DelimiterSet.opensRegion_iff.mpr ⟨by cases kind <;> rfl, h.matchOpener? kind⟩
  have hfirst : segmentAt? ({} : DelimiterSet).openers 1 (kind.written body ++ []) =
      .ok (some (kind.segment body)) := by
    rw [List.append_nil, TagKind.written, DelimiterSet.segmentAt?_of_opensRegion hopens,
      regionAfter, h.bodyBefore]
    rfl
  have hraw : (kind.segment body).raw = kind.written body := rfl
  have hne : kind.written body ≠ [] := by cases kind <;> exact List.cons_ne_nil _ _
  rw [segments, ← List.append_nil (kind.written body),
    DelimiterSet.segmentsFrom_of_segmentAt? hraw hne hfirst]
  rfl

end Stencil
