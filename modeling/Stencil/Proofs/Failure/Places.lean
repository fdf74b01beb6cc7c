/- Each byte offset has a place, and a report about it never reaches beyond a text. -/
import Stencil.Failure.Place
import Stencil.Proofs.Text.Lines
import Stencil.Proofs.Text.Slices

namespace Stencil

theorem difference?_of_le {m n : Nat} (h : n ≤ m) : difference? m n = some (m - n) := if_pos h

namespace Text

variable {t front rear : Text}

theorem isBoundary_iff {offset : Nat} :
    t.isBoundary offset = true ↔ ∃ front rear, t = front ++ rear ∧ front.byteSize = offset := by
  rw [isBoundary, Option.isSome_iff_exists, Prod.exists]
  exact exists_congr fun front => exists_congr fun rear => splitBytes?_eq_some_iff

/-- Stepping back ends where a character does. -/
theorem exists_boundaryFrom? (t : Text) (offset : Nat) :
    ∃ front rear, t = front ++ rear ∧ t.boundaryFrom? offset = some front.byteSize := by
  induction offset with
  | zero =>
    have hstart : t.isBoundary 0 = true := isBoundary_iff.mpr ⟨[], t, rfl, rfl⟩
    exact ⟨[], t, rfl, if_pos hstart⟩
  | succ offset ih =>
    rw [boundaryFrom?]
    split
    next hboundary =>
      obtain ⟨front, rear, ht, hsize⟩ := isBoundary_iff.mp hboundary
      exact ⟨front, rear, ht, congrArg some hsize.symm⟩
    next => exact ih

theorem boundaryFrom?_append (front rear : Text) :
    (front ++ rear).boundaryFrom? front.byteSize = some front.byteSize := by
  have hboundary : (front ++ rear).isBoundary front.byteSize = true :=
    isBoundary_iff.mpr ⟨front, rear, rfl, rfl⟩
  cases hsize : front.byteSize with
  | zero =>
    rw [hsize] at hboundary
    exact if_pos hboundary
  | succ n =>
    rw [hsize] at hboundary
    exact if_pos hboundary

theorem exists_lastLineStart (t : Text) :
    ∃ start tail, t = start ++ tail ∧ t.lastLineStart = start.byteSize := by
  refine ⟨(t.reverse.dropWhile (· ≠ '\n')).reverse, (t.reverse.takeWhile (· ≠ '\n')).reverse, ?_,
    rfl⟩
  rw [← List.reverse_append, List.takeWhile_append_dropWhile, List.reverse_reverse]

theorem lastLineStart_append (ls : List Text) {tail : Text} (h : '\n' ∉ tail) :
    lastLineStart (ls.flatMap (· ++ ['\n']) ++ tail) = byteSize (ls.flatMap (· ++ ['\n'])) := by
  have htail : ∀ c ∈ tail.reverse, decide (c ≠ '\n') = true := by
    intro c hc
    rw [decide_eq_true_eq]
    rintro rfl
    exact h (List.mem_reverse.mp hc)
  unfold lastLineStart
  rw [List.reverse_append, List.dropWhile_append_of_pos htail]
  rcases List.eq_nil_or_concat ls with rfl | ⟨ls, l, rfl⟩
  · rfl
  · simp

/-- The offset of a line is that of its first character that is not white space. -/
theorem lineOffsetFrom?_append {before : List Text} {line index : Nat}
    (h : index + before.length = line) (start : Nat) (content : Text) (after : List Text) :
    lineOffsetFrom? line index start (before ++ content :: after) = some (start +
      byteSize (before.flatMap (· ++ ['\n']) ++ content.takeWhile Unicode.isBlank)) := by
  induction before generalizing index start with
  | nil =>
    have hcontent := byteSize_takeWhile_add Unicode.isBlank content
    rw [List.nil_append, lineOffsetFrom?, if_pos (by exact h), List.flatMap_nil, List.nil_append]
    unfold trimStart
    dsimp only
    congr 2
    omega
  | cons l before ih =>
    rw [List.length_cons] at h
    rw [List.cons_append, lineOffsetFrom?, if_neg (by omega), ih (by omega), List.flatMap_cons]
    simp only [byteSize_append, byteSize_cons, byteSize_nil, show '\n'.utf8Size = 1 from rfl]
    congr 1
    omega

theorem lineOffsetFrom?_eq_none {ls : List Text} {line index : Nat}
    (h : line < index ∨ index + ls.length ≤ line) (start : Nat) :
    lineOffsetFrom? line index start ls = none := by
  induction ls generalizing index start with
  | nil => rfl
  | cons l ls ih =>
    rw [List.length_cons] at h
    rw [lineOffsetFrom?, if_neg (by omega), ih (by omega)]

end Text

namespace Place

variable {source start tail rear : Text} {offset : Nat}

theorem ofOffset?_of_boundary (hsource : source = start ++ tail ++ rear)
    (hstop : source.boundaryFrom? (min offset source.byteSize) = some (start ++ tail).byteSize)
    (hstart : (start ++ tail).lastLineStart = start.byteSize) :
    ofOffset? source offset = some ⟨(start ++ tail).newlines + 1, tail.length + 1⟩ := by
  have hbefore : source.slice? 0 (start ++ tail).byteSize = some (start ++ tail) :=
    Text.slice?_eq_some_iff.mpr ⟨[], rear, hsource, rfl, rfl⟩
  have hcurrent : source.slice? start.byteSize (start ++ tail).byteSize = some tail :=
    Text.slice?_eq_some_iff.mpr
      ⟨start, rear, hsource.trans (List.append_assoc start tail rear), rfl, rfl⟩
  rw [ofOffset?, hstop, Option.bind_some, hbefore, Option.bind_some, hstart, hcurrent]
  rfl

/-- The place behind `tail`, in front of which a line starts. -/
theorem ofOffset?_append (h : (start ++ tail).lastLineStart = start.byteSize) (rear : Text) :
    ofOffset? (start ++ tail ++ rear) (start ++ tail).byteSize =
      some ⟨(start ++ tail).newlines + 1, tail.length + 1⟩ := by
  refine ofOffset?_of_boundary rfl ?_ h
  rw [Text.byteSize_append (start ++ tail) rear, Nat.min_eq_left (Nat.le_add_right _ _)]
  exact Text.boundaryFrom?_append (start ++ tail) rear

theorem exists_ofOffset? (source : Text) (offset : Nat) : ∃ front rear column,
    source = front ++ rear ∧ ofOffset? source offset = some ⟨front.newlines + 1, column + 1⟩ := by
  obtain ⟨front, rear, hsource, hstop⟩ :=
    source.exists_boundaryFrom? (min offset source.byteSize)
  obtain ⟨start, tail, rfl, hstart⟩ := front.exists_lastLineStart
  exact ⟨_, rear, _, hsource, ofOffset?_of_boundary hsource hstop hstart⟩

/-- The offset of a line is that of the place behind the white space that it starts with. -/
theorem exists_lineOffset? {content : Text} {n : Nat} (hpos : 1 ≤ n)
    (hcontent : source.lines[n - 1]? = some content) :
    ∃ offset, source.lineOffset? n = some offset ∧
      ofOffset? source offset = some ⟨n, (content.takeWhile Unicode.isBlank).length + 1⟩ := by
  obtain ⟨hindex, hget⟩ := List.getElem?_eq_some_iff.mp hcontent
  have hlines := (List.take_append_drop (n - 1) source.lines).symm
  rw [List.drop_eq_getElem_cons hindex, hget] at hlines
  have hlength : (source.lines.take (n - 1)).length = n - 1 :=
    List.length_take_of_le (Nat.le_of_lt hindex)
  have hbefore : ∀ l ∈ source.lines.take (n - 1), '\n' ∉ l := fun l hl =>
    Text.newline_notMem_of_mem_lines (List.mem_of_mem_take hl)
  generalize source.lines.take (n - 1) = before at hlines hlength hbefore
  have hindent : '\n' ∉ content.takeWhile Unicode.isBlank := fun hmem =>
    Text.newline_notMem_of_mem_lines (List.mem_of_getElem? hcontent)
      ((List.takeWhile_prefix _).subset hmem)
  have hline : 1 + before.length = n := by omega
  have hoffset := Text.lineOffsetFrom?_append hline 0 content (source.lines.drop (n - 1 + 1))
  rw [← hlines, Nat.zero_add] at hoffset
  refine ⟨_, hoffset, ?_⟩
  have hsource := Text.eq_of_lines_append hlines
  rw [← List.takeWhile_append_dropWhile (p := Unicode.isBlank) (l := content), List.append_assoc,
    ← List.append_assoc] at hsource
  have hplace := ofOffset?_append (Text.lastLineStart_append before hindent)
    (content.dropWhile Unicode.isBlank ++ (source.lines.drop (n - 1 + 1)).flatMap ('\n' :: ·))
  rw [← hsource, Text.newlines_append, Text.newlines_flatMap_lines hbefore, Text.newlines,
    List.count_eq_zero.mpr hindent, hlength, Nat.add_zero, Nat.sub_add_cancel hpos] at hplace
  exact hplace

theorem lineOffset?_eq_none_iff {n : Nat} :
    source.lineOffset? n = none ↔ ¬ (1 ≤ n ∧ n ≤ source.lines.length) := by
  constructor
  · rintro hnone ⟨hpos, hle⟩
    have hcontent : source.lines[n - 1]? = some source.lines[n - 1] :=
      List.getElem?_eq_getElem (by omega)
    obtain ⟨offset, hoffset, -⟩ := exists_lineOffset? hpos hcontent
    cases hnone.symm.trans hoffset
  · exact fun hline => Text.lineOffsetFrom?_eq_none (by omega) 0

end Place

namespace Excerpt

variable {t : Text}

theorem expandTabs_append (s t : Text) : expandTabs (s ++ t) = expandTabs s ++ expandTabs t :=
  List.flatMap_append

theorem columns_eq (t : Text) : columns t = (expandTabs t).length := by
  induction t with
  | nil => rfl
  | cons c t ih =>
    rw [columns, ih, ← List.singleton_append, expandTabs_append, List.length_append]
    by_cases hc : c = '\t'
    · rw [if_pos hc, hc]
      rfl
    · rw [if_neg hc]
      simp [expandTabs, hc]

/-- Within the line, cutting reaches neither beyond it nor below zero. -/
theorem cut?_eq {caret : Nat} (h : caret ≤ t.length) : cut? t caret = some (cut t caret) := by
  unfold cut? cut
  split
  next => rfl
  next =>
    have hfirst : min (caret - context) t.length = caret - context := by omega
    have hwindow : t.window? (caret - context) (min (caret + context) t.length) =
        some ((t.take (min (caret + context) t.length)).drop (caret - context)) :=
      if_pos (by omega)
    have hbytes : Text.byteSize (if 0 < caret - context then ellipsis else []) =
        List.length (if 0 < caret - context then ellipsis else []) := by
      split <;> rfl
    dsimp only
    rw [hfirst, hwindow, Option.bind_some, difference?_of_le (by omega), Option.map_some, hbytes]

theorem ofColumn?_eq (line column : Nat) (content : Text) :
    let visible := dropReturns content
    let cut := cut (expandTabs visible) (expandTabs (visible.take column)).length
    ofColumn? ⟨line, column + 1⟩ content = some ⟨line, column + 1, cut.1, cut.2⟩ := by
  intro visible cut
  have hcolumn : (expandTabs (visible.take column)).length ≤ (expandTabs visible).length := by
    have hsplit := expandTabs_append (visible.take column) (visible.drop column)
    rw [List.take_append_drop] at hsplit
    rw [hsplit, List.length_append]
    exact Nat.le_add_right _ _
  rw [ofColumn?, difference?_of_le (Nat.le_add_left 1 column), Option.bind_some,
    Nat.add_sub_cancel, columns_eq, cut?_eq hcolumn]
  rfl

end Excerpt

/-- A report about any byte offset can be written. -/
theorem exists_reportAt? (message : String) (help : Option String) (source : Text)
    (filename : String) (offset : Nat) :
    ∃ report, reportAt? message help source filename offset = some report := by
  obtain ⟨front, rear, column, -, hplace⟩ := Place.exists_ofOffset? source offset
  have hlines : ∃ rows, placeLines? source ⟨front.newlines + 1, column + 1⟩ filename =
      some rows := by
    rw [placeLines?, difference?_of_le (Nat.le_add_left 1 _), Option.bind_some,
      Nat.add_sub_cancel]
    split
    next => exact ⟨_, rfl⟩
    next content _ =>
      rw [Excerpt.ofColumn?_eq]
      exact ⟨_, rfl⟩
  obtain ⟨rows, hrows⟩ := hlines
  rw [reportAt?, hplace, Option.bind_some, hrows]
  exact ⟨_, rfl⟩

end Stencil
