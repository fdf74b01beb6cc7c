/- The source lines of a splice, character by character. -/
import Stencil.Splice.Basic

namespace Stencil

/-- The source lines of the characters of a piece. -/
def Chunk.lines (c : Chunk) : List Nat := (List.range c.text.length).map c.lineAt

theorem Chunk.lines_cons (c : Char) (t : Text) (line : Nat) (advances : Bool) :
    Chunk.lines ⟨c :: t, line, advances⟩ =
      line :: Chunk.lines ⟨t, if advances then line + Text.newlines [c] else line, advances⟩ := by
  unfold Chunk.lines
  rw [List.length_cons, List.range_succ_eq_map, List.map_cons, List.map_map]
  cases advances with
  | false => rfl
  | true =>
    refine congrArg (line :: ·) (List.map_congr_left fun n _ => ?_)
    show line + Text.newlines (List.take (n + 1) (c :: t)) = _
    rw [List.take_succ_cons, Text.newlines_cons]
    exact (Nat.add_assoc ..).symm

namespace Splice

def lines (s : Splice) : List Nat := s.flatMap Chunk.lines

theorem lines_append (s u : Splice) : lines (s ++ u) = s.lines ++ u.lines := List.flatMap_append

theorem lines_cons (c : Chunk) (s : Splice) : lines (c :: s) = c.lines ++ s.lines := rfl

theorem text_cons (c : Chunk) (s : Splice) : text (c :: s) = c.text ++ s.text := rfl

/-- Every character has the line that is looked up at its position. -/
theorem getElem?_lines {s : Splice} {n : Nat} (h : n < s.text.length) :
    s.lines[n]? = some (s.lineAt n) := by
  induction s generalizing n with
  | nil => cases h
  | cons c s ih =>
    have hlines : c.lines.length = c.text.length := by
      rw [Chunk.lines, List.length_map, List.length_range]
    have hfirst : n < c.text.length → (c.lines ++ lines s)[n]? = some (c.lineAt n) := by
      intro hn
      rw [List.getElem?_append_left (by omega), Chunk.lines, List.getElem?_map,
        List.getElem?_range hn]
      rfl
    rw [lines_cons]
    rw [text_cons, List.length_append] at h
    cases s with
    | nil => exact hfirst h
    | cons d ds =>
      rw [lineAt]
      split
      next hn => exact hfirst hn
      next hn =>
        rw [List.getElem?_append_right (by omega), hlines]
        exact ih (by omega)

end Splice

end Stencil
