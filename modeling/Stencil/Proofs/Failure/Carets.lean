/- Reports show the line of a source, with the caret under its first character. -/
import Stencil.Proofs.Failure.Places

namespace Stencil

namespace Excerpt

/-- Dots in place of a text that is cut off. -/
def dots (t : Text) : Text := if t = [] then [] else ellipsis

/-- The text is shown up to its end. -/
def ShowsEnd (t shown : Text) : Prop := ∃ off kept, t = off ++ kept ∧ shown = dots off ++ kept

/-- The text is shown from its start on. -/
def ShowsStart (t shown : Text) : Prop := ∃ kept off, t = kept ++ off ∧ shown = kept ++ dots off

theorem dots_take {t : Text} {n : Nat} (h : n ≤ t.length) :
    dots (t.take n) = if 0 < n then ellipsis else [] := by
  unfold dots
  by_cases hn : 0 < n
  · rw [if_pos hn, if_neg]
    rw [List.take_eq_nil_iff]
    rintro (rfl | rfl)
    · exact Nat.lt_irrefl 0 hn
    · exact Nat.not_le_of_gt hn h
  · obtain rfl := Nat.eq_zero_of_not_pos hn
    rfl

theorem dots_drop (t : Text) (n : Nat) :
    dots (t.drop n) = if n < t.length then ellipsis else [] := by
  unfold dots
  by_cases hn : n < t.length
  · rw [if_pos hn, if_neg (by rw [List.drop_eq_nil_iff]; omega)]
  · rw [if_neg hn, if_pos (List.drop_eq_nil_iff.mpr (Nat.le_of_not_lt hn))]

/-- A line is cut on either side of a character unless it is short, and the caret stays under it. -/
theorem exists_cut (before : Text) (c : Char) (after : Text) :
    ∃ front rear, ShowsEnd before front ∧ ShowsStart after rear ∧
      ((before ++ c :: after).length ≤ fullLength → front = before ∧ rear = after) ∧
      cut (before ++ c :: after) before.length = (front ++ c :: rear, front.length) := by
  unfold cut
  split
  next =>
    have hwhole : after = after ++ [] := (List.append_nil after).symm
    exact ⟨before, after, ⟨[], before, rfl, rfl⟩, ⟨after, [], hwhole, hwhole⟩,
      fun _ => ⟨rfl, rfl⟩, rfl⟩
  next hlong =>
    have hlength : (before ++ c :: after).length = before.length + 1 + after.length := by
      rw [List.length_append, List.length_cons]
      omega
    obtain ⟨m, hm, hlast⟩ : ∃ m, m = min (context - 1) after.length ∧
        min (before.length + context) (before ++ c :: after).length = before.length + (m + 1) := by
      refine ⟨_, rfl, ?_⟩
      rw [hlength, context]
      omega
    have hstretch : ((before ++ c :: after).take (before.length + (m + 1))).drop
        (before.length - context) =
          before.drop (before.length - context) ++ c :: after.take m := by
      rw [List.take_length_add_append, List.take_succ_cons,
        List.drop_append_of_le_length (Nat.sub_le _ _)]
    have hbefore := dots_take (Nat.sub_le before.length context)
    have hafter : dots (after.drop m) =
        if before.length + (m + 1) < (before ++ c :: after).length then ellipsis else [] := by
      rw [dots_drop, hlength]
      congr 1
      exact propext (by omega)
    refine ⟨_, _, ⟨_, _, (List.take_append_drop (before.length - context) before).symm, rfl⟩,
      ⟨_, _, (List.take_append_drop m after).symm, rfl⟩, fun hshort => absurd hshort hlong, ?_⟩
    dsimp only
    rw [hlast, hstretch, ← hbefore, ← hafter, List.length_append, List.length_drop]
    refine Prod.ext ?_ ?_
    · simp only [List.append_assoc, List.cons_append]
    · dsimp only
      omega

end Excerpt

section Lines

variable {indent rest : Text} {first : Char}

theorem expandTabs_cons (h : first ≠ '\t') (t : Text) :
    Excerpt.expandTabs (first :: t) = first :: Excerpt.expandTabs t := by
  rw [← List.singleton_append, Excerpt.expandTabs_append]
  simp [Excerpt.expandTabs, h]

/-- Returns are only dropped behind the last other character. -/
theorem dropReturns_append (h : first ≠ '\r') (indent rest : Text) :
    Excerpt.dropReturns (indent ++ first :: rest) =
      indent ++ first :: Excerpt.dropReturns rest := by
  unfold Excerpt.dropReturns
  rw [List.reverse_append, List.reverse_cons, List.append_assoc, List.dropWhile_append]
  split
  next hempty =>
    rw [List.isEmpty_iff.mp hempty, List.singleton_append,
      List.dropWhile_cons_of_neg (by simpa using h)]
    simp
  next => simp

theorem takeWhile_isBlank_append (hindent : ∀ c ∈ indent, Unicode.isBlank c = true)
    (hfirst : Unicode.isBlank first = false) (rest : Text) :
    (indent ++ first :: rest).takeWhile Unicode.isBlank = indent := by
  rw [List.takeWhile_append_of_pos hindent, List.takeWhile_cons_of_neg (by simp [hfirst]),
    List.append_nil]

/-- The first character of a line that is not white space, and what stands around it. -/
theorem exists_first {content : Text} (h : ∃ c ∈ content, Unicode.isBlank c = false) :
    ∃ indent first rest, content = indent ++ first :: rest ∧
      (∀ c ∈ indent, Unicode.isBlank c = true) ∧ Unicode.isBlank first = false := by
  induction content with
  | nil =>
    obtain ⟨c, hc, -⟩ := h
    cases hc
  | cons d content ih =>
    cases hd : Unicode.isBlank d with
    | false => exact ⟨[], d, content, rfl, fun _ hc => absurd hc List.not_mem_nil, hd⟩
    | true =>
      have hrest : ∃ c ∈ content, Unicode.isBlank c = false := by
        obtain ⟨c, hc, hblank⟩ := h
        rcases List.mem_cons.mp hc with rfl | hc
        · exact absurd hd (by simp [hblank])
        · exact ⟨c, hc, hblank⟩
      obtain ⟨indent, first, rest, rfl, hindent, hfirst⟩ := ih hrest
      exact ⟨d :: indent, first, rest, rfl, List.forall_mem_cons.mpr ⟨hd, hindent⟩, hfirst⟩

/-- The excerpt of a line shows its first character that is not white space above the caret. -/
theorem Excerpt.exists_ofLine (line : Nat) (hindent : ∀ c ∈ indent, Unicode.isBlank c = true)
    (hfirst : Unicode.isBlank first = false) (rest : Text) :
    ∃ front rear, ShowsEnd (expandTabs indent) front ∧
      ShowsStart (expandTabs (dropReturns rest)) rear ∧
      ((expandTabs (dropReturns (indent ++ first :: rest))).length ≤ fullLength →
        front ++ first :: rear = expandTabs (dropReturns (indent ++ first :: rest))) ∧
      ofLine line (indent ++ first :: rest) =
        ⟨line, indent.length + 1, front ++ first :: rear, front.length⟩ := by
  have hreturn : first ≠ '\r' := by
    rintro rfl
    cases hfirst
  have htab : first ≠ '\t' := by
    rintro rfl
    cases hfirst
  unfold ofLine
  rw [takeWhile_isBlank_append hindent hfirst, dropReturns_append hreturn]
  dsimp only
  rw [List.take_left, expandTabs_append, expandTabs_cons htab]
  obtain ⟨front, rear, hfront, hrear, hshort, hcut⟩ :=
    exists_cut (expandTabs indent) first (expandTabs (dropReturns rest))
  rw [hcut]
  refine ⟨front, rear, hfront, hrear, fun hlength => ?_, rfl⟩
  obtain ⟨rfl, rfl⟩ := hshort hlength
  rfl

end Lines

/-- The second line is a caret behind other characters. In the first one, `c` stands above it. -/
def CaretUnder (above below : String) (c : Char) : Prop :=
  ∃ front, below.toList = front ++ ['^'] ∧ '^' ∉ front ∧ above.toList[front.length]? = some c

/-- Lines of a report that name line `n` of a file and the column of the first character in it that
is not white space, and show that character above the caret. Behind and in front of it stands what
the line has there, with tabs as blanks and without returns at the end; all of it if it is short. -/
def PointsAtFirst (filename : String) (n : Nat) (content : Text) (rows : List String) : Prop :=
  ∃ indent first rest, content = indent ++ first :: rest ∧
    (∀ c ∈ indent, Unicode.isBlank c = true) ∧ Unicode.isBlank first = false ∧
    ∃ front rear, Excerpt.ShowsEnd (Excerpt.expandTabs indent) front ∧
      Excerpt.ShowsStart (Excerpt.expandTabs (Excerpt.dropReturns rest)) rear ∧
      ((Excerpt.expandTabs (Excerpt.dropReturns content)).length ≤ Excerpt.fullLength →
        front ++ first :: rear = Excerpt.expandTabs (Excerpt.dropReturns content)) ∧
      ∃ below, CaretUnder s!"{n} | {(front ++ first :: rear).string}" below first ∧
        rows = [s!" --> {filename}:{n}:{indent.length + 1}",
          s!"{Diagnostic.spaces (toString n).length} |",
          s!"{n} | {(front ++ first :: rear).string}", below]

namespace Diagnostic

/-- What went wrong, without the line. -/
def heading (d : Diagnostic) : String := s!"{d.kind.name}: {d.message}"

theorem toList_spaces (n : Nat) : (spaces n).toList = List.replicate n ' ' := String.toList_ofList

/-- The caret of an excerpt stands under the character that follows so many of those shown. -/
theorem caretUnder (n : Nat) (front : Text) (c : Char) (rear : Text) :
    CaretUnder s!"{n} | {(front ++ c :: rear).string}"
      s!"{spaces (toString n).length} | {spaces front.length}^" c := by
  have habove : s!"{n} | {(front ++ c :: rear).string}".toList =
      ((toString n).toList ++ " | ".toList ++ front) ++ c :: rear := by
    simp only [toString, String.toList_append, Text.string, String.toList_ofList,
      List.append_assoc]
  have hlength : (List.replicate (toString n).length ' ' ++ " | ".toList ++
      List.replicate front.length ' ').length =
        ((toString n).toList ++ " | ".toList ++ front).length := by
    simp only [List.length_append, List.length_replicate, String.length_toList]
  refine ⟨List.replicate (toString n).length ' ' ++ " | ".toList ++
    List.replicate front.length ' ', ?_, ?_, ?_⟩
  · rw [← toList_spaces, ← toList_spaces]
    simp only [toString, String.toList_append, List.append_assoc]
    rfl
  · simp [List.mem_replicate]
  · rw [habove, hlength, List.getElem?_append_right (Nat.le_refl _), Nat.sub_self]
    rfl

theorem report_eq (d : Diagnostic) (source : Text) (filename : String) :
    d.report source filename = reportText d.heading d.help
      (match d.excerpt? source with
        | some e => excerptLines e filename
        | none => [s!" --> {filename}"]) := by
  have hheading : s!"error: {d.kind.name}: {d.message}" = s!"error: {d.heading}" := by
    simp only [heading, toString, String.append_assoc]
  unfold report
  rw [hheading]
  rfl

/-- A report that only names the file is none of a line. -/
theorem reportText_ne (message : String) (help : Option String) (filename : String)
    (e : Excerpt) : reportText message help [s!" --> {filename}"] ≠
      reportText message help (excerptLines e filename) := by
  have hcons (s : String) (l : List String) : "".intercalate (s :: l) = s ++ "".intercalate l := by
    cases l with
    | nil => simp
    | cons t l => rw [String.intercalate_cons_cons, String.append_empty]
  intro h
  -- behind the name of the file, one goes on with a newline and the other one with a colon
  simp only [reportText, excerptLines, List.cons_append, List.map_cons, hcons, toString,
    String.append_assoc, String.append_right_inj] at h
  have hlists := congrArg (·.toList.head?) h
  simp at hlists

theorem report_of_content {d : Diagnostic} {n : Nat} (hn : d.line = some n) (hpos : 1 ≤ n)
    {source content : Text} (hcontent : source.lines[n - 1]? = some content) (filename : String) :
    d.report source filename =
      reportText d.heading d.help (excerptLines (Excerpt.ofLine n content) filename) := by
  have hexcerpt : d.excerpt? source = some (Excerpt.ofLine n content) := by
    rw [excerpt?, hn]
    show Excerpt.at? source n = _
    rw [Excerpt.at?, if_neg (by omega), hcontent]
    rfl
  rw [report_eq, hexcerpt]

theorem report_of_no_line {d : Diagnostic} {n : Nat} (hn : d.line = some n) {source : Text}
    (h : ¬ (1 ≤ n ∧ n ≤ source.lines.length)) (filename : String) :
    d.report source filename = reportText d.heading d.help [s!" --> {filename}"] := by
  have hexcerpt : d.excerpt? source = none := by
    rw [excerpt?, hn]
    show Excerpt.at? source n = _
    rw [Excerpt.at?]
    split
    next => rfl
    next => rw [List.getElem?_eq_none (by omega)]; rfl
  rw [report_eq, hexcerpt]

/-- The report about a line is the one about its first character that is not white space. -/
theorem reportAt?_of_content {d : Diagnostic} {n : Nat} (hn : d.line = some n) (hpos : 1 ≤ n)
    {source content : Text} (hcontent : source.lines[n - 1]? = some content) (filename : String) :
    ∃ offset, source.lineOffset? n = some offset ∧
      reportAt? d.heading d.help source filename offset = some (d.report source filename) := by
  obtain ⟨offset, hoffset, hplace⟩ := Place.exists_lineOffset? hpos hcontent
  refine ⟨offset, hoffset, ?_⟩
  rw [reportAt?, hplace, Option.bind_some, placeLines?, difference?_of_le hpos, Option.bind_some,
    hcontent]
  dsimp only
  rw [Excerpt.ofColumn?_eq, report_of_content hn hpos hcontent]
  rfl

theorem pointsAtFirst_ofLine {content : Text} (h : ∃ c ∈ content, Unicode.isBlank c = false)
    (n : Nat) (filename : String) :
    PointsAtFirst filename n content (excerptLines (Excerpt.ofLine n content) filename) := by
  obtain ⟨indent, first, rest, rfl, hindent, hfirst⟩ := exists_first h
  obtain ⟨front, rear, hfront, hrear, hshort, hexcerpt⟩ :=
    Excerpt.exists_ofLine n hindent hfirst rest
  rw [hexcerpt]
  exact ⟨indent, first, rest, rfl, hindent, hfirst, front, rear, hfront, hrear, hshort, _,
    caretUnder n front first rear, rfl⟩

/-- The report of a line is located exactly if the source has the line, and only then the line has a
byte offset. If it is not all white space, the caret stands under its first other character. It is
the report about the byte offset of that character. No report about any offset of any source reaches
beyond a text or below zero. -/
theorem report_points {d : Diagnostic} {n : Nat} (hn : d.line = some n) (source : Text)
    (filename : String) :
    ((∃ e : Excerpt, e.line = n ∧
        d.report source filename = reportText d.heading d.help (excerptLines e filename)) ↔
      1 ≤ n ∧ n ≤ source.lines.length) ∧
    (source.lineOffset? n = none ↔ ¬ (1 ≤ n ∧ n ≤ source.lines.length)) ∧
    (∀ content, 1 ≤ n → source.lines[n - 1]? = some content →
      (∃ offset, source.lineOffset? n = some offset ∧
        reportAt? d.heading d.help source filename offset = some (d.report source filename)) ∧
      ((∃ c ∈ content, Unicode.isBlank c = false) →
        ∃ rows, d.report source filename = reportText d.heading d.help rows ∧
          PointsAtFirst filename n content rows)) ∧
    ∀ message help offset, ∃ report,
      reportAt? message help source filename offset = some report := by
  refine ⟨⟨fun ⟨e, _, he⟩ => ?_, fun ⟨hpos, hle⟩ => ?_⟩, Place.lineOffset?_eq_none_iff,
    fun content hpos hcontent => ?_,
    fun message help offset => exists_reportAt? message help source filename offset⟩
  · refine Classical.byContradiction fun hline => ?_
    rw [report_of_no_line hn hline] at he
    exact reportText_ne _ _ _ e he
  · have hcontent : source.lines[n - 1]? = some source.lines[n - 1] :=
      List.getElem?_eq_getElem (by omega)
    exact ⟨_, rfl, report_of_content hn hpos hcontent filename⟩
  · exact ⟨reportAt?_of_content hn hpos hcontent filename, fun hfirst =>
      ⟨_, report_of_content hn hpos hcontent filename, pointsAtFirst_ofLine hfirst n filename⟩⟩

/-- A line that is cut on both sides, behind nine tabs and in front of a return. -/
theorem report_points_cut :
    let d : Diagnostic := ⟨.lexical, some 2, "m", none⟩
    let content : Text := List.replicate 9 '\t' ++ (List.replicate 60 'é' ++ ['\r'])
    let source : Text := "x\n".toList ++ content
    let blanks := spaces 30
    let letters := Text.string (List.replicate 30 'é')
    d.line = some 2 ∧ source.lines[1]? = some content ∧
      d.report source "t.html" = "error: lexical error: m\n --> t.html:2:10\n  |\n2 | ..." ++
        (blanks ++ (letters ++ ("...\n  |    " ++ (blanks ++ "^\n")))) ∧
      ∃ rows, d.report source "t.html" = reportText d.heading d.help rows ∧
        PointsAtFirst "t.html" 2 content rows := by
  intro d content source blanks letters
  have hcontent : source.lines[1]? = some content := by decide
  have hfirst : ∃ c ∈ content, Unicode.isBlank c = false := ⟨'é', by decide, by decide⟩
  refine ⟨rfl, hcontent, by decide +kernel, ?_⟩
  exact ((report_points (d := d) rfl source "t.html").2.2.1 content (by decide) hcontent).2 hfirst

end Diagnostic

end Stencil
