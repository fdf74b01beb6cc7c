/- An output that is written chunk by chunk answers with the lines of the chunks. -/
import Stencil.Splice.Output

namespace Stencil

namespace Text

theorem newlinesBetween_of_eq {t front u rear : Text} (h : t = front ++ (u ++ rear)) :
    t.newlinesBetween front.byteSize (front.byteSize + u.byteSize) = u.newlines := by
  rw [newlinesBetween, slice?_of_eq h rfl rfl, Option.getD_some]

theorem lineStart_le_length (n : Nat) (t : Text) : lineStart n t ≤ t.length := by
  induction t generalizing n with
  | nil => exact Nat.le_refl 0
  | cons c cs ih =>
    rw [lineStart, List.length_cons]
    split
    next => exact Nat.zero_le _
    next =>
      have hrest := ih (if c = '\n' then n - 1 else n)
      omega

/-- The lines before one of them, with their newlines, are the text in front of it. -/
theorem flatten_linesWithEnds (n : Nat) (t : Text) :
    (t.linesWithEnds.take (n - 1)).flatten = t.take (lineStart n t) := by
  induction t generalizing n with
  | nil =>
    rw [linesWithEnds, List.take_nil]
    rfl
  | cons c cs ih =>
    rw [linesWithEnds, lineStart]
    by_cases hn : n ≤ 1
    · rw [if_pos hn, Nat.sub_eq_zero_of_le hn]
      rfl
    · rw [if_neg hn, Nat.add_comm 1 (lineStart _ cs), List.take_succ_cons]
      have hsucc : n - 1 = n - 2 + 1 := by omega
      by_cases hc : c = '\n'
      · have hrest := ih (n - 1)
        rw [Nat.sub_sub] at hrest
        rw [if_pos hc, if_pos hc, hsucc, List.take_succ_cons, List.flatten_cons, hrest, ← hsucc]
        rfl
      · have hrest := ih n
        rw [if_neg hc, if_neg hc, ← hrest]
        cases linesWithEnds cs with
        | nil =>
          dsimp only
          rw [hsucc, List.take_succ_cons, List.take_nil, List.take_nil]
          rfl
        | cons l ls =>
          rw [hsucc]
          rfl

end Text

namespace Splice

/-- The output with the chunks written behind it. -/
def writtenTo (out : Output) (s : Splice) : Output :=
  s.foldl (fun out c => out.push c.text c.line c.advances) out

theorem writtenTo_append (out : Output) (s u : Splice) :
    writtenTo out (s ++ u) = u.writtenTo (s.writtenTo out) := List.foldl_append

/-- The spans of chunks that are written from that offset on. -/
def spans (offset : Nat) : Splice → List LineSpan
  | [] => []
  | c :: s => ⟨offset, c.line, c.advances⟩ :: spans (offset + c.text.byteSize) s

theorem text_writtenTo (out : Output) (s : Splice) :
    (s.writtenTo out).text = out.text ++ s.text := by
  induction s generalizing out with
  | nil => exact (List.append_nil _).symm
  | cons c s ih => exact (ih _).trans (List.append_assoc ..)

theorem spans_writtenTo (out : Output) (s : Splice) :
    (s.writtenTo out).lines.spans = out.lines.spans ++ s.spans out.text.byteSize := by
  induction s generalizing out with
  | nil => exact (List.append_nil _).symm
  | cons c s ih =>
    refine (ih _).trans ?_
    show (out.lines.spans ++ [_]) ++ spans (out.text ++ c.text).byteSize s = _
    rw [Text.byteSize_append, List.append_assoc]
    rfl

/-- A position in a chunk has the line that the chunk has there. -/
theorem lineAt_span {t front rear : Text} {c : Chunk} {n : Nat}
    (ht : t = front ++ (c.text ++ rear)) (hn : n ≤ c.text.length) :
    LineSpan.lineAt ⟨front.byteSize, c.line, c.advances⟩ t
      (front.byteSize + Text.byteSize ((c.text ++ rear).take n)) = c.lineAt n := by
  have hcut : t = front ++ (c.text.take n ++ (c.text.drop n ++ rear)) := by
    rw [ht, ← List.append_assoc (c.text.take n), List.take_append_drop]
  rw [List.take_append_of_le_length hn, LineSpan.lineAt, Text.newlinesBetween_of_eq hcut]
  rfl

/-- Of the chunks behind `front`, the last that starts at the position or before it has the line of
the position. -/
theorem exists_spanAt {t front : Text} {s : Splice} {n : Nat} (hs : s ≠ [])
    (hn : n ≤ s.text.length) (ht : t = front ++ s.text) : ∃ sp : LineSpan,
      LineMap.spanAt? ⟨s.spans front.byteSize⟩ (front.byteSize + Text.byteSize (s.text.take n)) =
        some sp ∧
      sp.lineAt t (front.byteSize + Text.byteSize (s.text.take n)) = s.lineAt n := by
  induction s generalizing front n with
  | nil => exact absurd rfl hs
  | cons c s ih =>
    have hhere : front.byteSize ≤ front.byteSize + Text.byteSize (text (c :: s) |>.take n) :=
      Nat.le_add_right _ _
    cases s with
    | nil =>
      have hlength : n ≤ c.text.length := by
        rw [text, List.flatMap_singleton] at hn
        exact hn
      refine ⟨⟨front.byteSize, c.line, c.advances⟩, ?_, lineAt_span ht hlength⟩
      rw [LineMap.spanAt?, spans, spans, List.takeWhile_cons, if_pos (decide_eq_true hhere)]
      rfl
    | cons d ds =>
      have htext : text (c :: d :: ds) = c.text ++ text (d :: ds) := rfl
      rw [htext] at hn ht hhere ⊢
      by_cases hlt : n < c.text.length
      · refine ⟨⟨front.byteSize, c.line, c.advances⟩, ?_,
          (lineAt_span ht (Nat.le_of_lt hlt)).trans (if_pos hlt).symm⟩
        -- The next chunk starts behind the rest of this one, which is not empty.
        have hrest := Text.byteSize_pos (mt List.drop_eq_nil_iff.mp (Nat.not_le_of_lt hlt))
        have hsize : Text.byteSize (c.text.take n) + Text.byteSize (c.text.drop n) =
            c.text.byteSize := by
          rw [← Text.byteSize_append, List.take_append_drop]
        have hbehind : ¬ front.byteSize + c.text.byteSize ≤
            front.byteSize + Text.byteSize ((c.text ++ text (d :: ds)).take n) := by
          rw [List.take_append_of_le_length (Nat.le_of_lt hlt)]
          omega
        rw [LineMap.spanAt?, spans, spans, List.takeWhile_cons, if_pos (decide_eq_true hhere),
          List.takeWhile_cons, if_neg (by rw [decide_eq_true_eq]; exact hbehind)]
        rfl
      · have hle := Nat.le_of_not_lt hlt
        have htake : (c.text ++ text (d :: ds)).take n =
            c.text ++ (text (d :: ds)).take (n - c.text.length) := by
          rw [List.take_append, List.take_of_length_le hle]
        have hrest : n - c.text.length ≤ (text (d :: ds)).length := by
          rw [List.length_append] at hn
          omega
        have hbehind : t = (front ++ c.text) ++ text (d :: ds) := by rw [ht, List.append_assoc]
        obtain ⟨sp, hsp, hline⟩ := ih (List.cons_ne_nil d ds) hrest hbehind
        have hoffset : front.byteSize + Text.byteSize ((c.text ++ text (d :: ds)).take n) =
            (front ++ c.text).byteSize +
              Text.byteSize ((text (d :: ds)).take (n - c.text.length)) := by
          rw [htake, Text.byteSize_append, Text.byteSize_append, Nat.add_assoc]
        rw [← hoffset] at hsp hline
        refine ⟨sp, ?_, hline.trans (if_neg hlt).symm⟩
        rw [LineMap.spanAt?, Text.byteSize_append] at hsp
        rw [LineMap.spanAt?, spans, List.takeWhile_cons, if_pos (decide_eq_true hhere),
          List.getLast?_cons, hsp, Option.getD_some]

end Splice

/-- The output reads as the splice and has its lines. -/
structure Output.Answers (out : Output) (s : Splice) : Prop where
  text : out.text = s.text
  lineAt : ∀ n ≤ s.text.length,
    out.lines.lineAt out.text (Text.byteSize (out.text.take n)) = s.lineAt n

/-- An output that is written chunk by chunk reads as the chunks and has their lines. -/
theorem Splice.answers_writtenTo (s : Splice) : (s.writtenTo {}).Answers s := by
  have htext : (s.writtenTo {}).text = s.text := s.text_writtenTo {}
  refine ⟨htext, fun n hn => ?_⟩
  have hmap : (s.writtenTo {}).lines = ⟨s.spans 0⟩ := congrArg LineMap.mk (s.spans_writtenTo {})
  rw [htext, hmap]
  cases s with
  | nil =>
    obtain rfl := Nat.eq_zero_of_le_zero hn
    rfl
  | cons c s =>
    have hall : text (c :: s) = [] ++ text (c :: s) := rfl
    obtain ⟨sp, hsp, hline⟩ := exists_spanAt (List.cons_ne_nil c s) hn hall
    rw [Text.byteSize_nil, Nat.zero_add] at hsp hline
    rw [LineMap.lineAt, hsp]
    exact hline

/-- A source that is its own output has its own lines. -/
theorem Output.answers_whole (contents : Text) :
    Output.Answers { text := contents } (Splice.whole contents) where
  text := (List.append_nil contents).symm
  lineAt n _ := by
    have hcut : contents = [] ++ (contents.take n ++ contents.drop n) :=
      (List.take_append_drop n contents).symm
    have hlines := Text.newlinesBetween_of_eq hcut
    rw [Text.byteSize_nil, Nat.zero_add] at hlines
    exact congrArg (1 + ·) hlines

/-- The map of the output answers for lines as the splice does. -/
theorem Output.Answers.sourceLine {out : Output} {s : Splice} (h : out.Answers s) (line : Nat) :
    out.lines.sourceLine out.text line = s.sourceLine line := by
  have hle : Text.lineStart line s.text ≤ s.text.length := Text.lineStart_le_length line s.text
  rw [LineMap.sourceLine, Text.flatten_linesWithEnds, Splice.sourceLine, ← h.lineAt _ hle, h.text]

end Stencil
