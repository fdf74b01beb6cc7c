/- A text is put together from its lines. -/
import Stencil.Text.Basic

namespace Stencil.Text

theorem lines_ne_nil (t : Text) : t.lines ≠ [] := by
  intro h
  have hlength := length_lines t
  rw [h] at hlength
  cases hlength

/-- A newline stands between each line and the next one. -/
theorem eq_of_lines {t first : Text} {rest : List Text} (h : t.lines = first :: rest) :
    t = first ++ rest.flatMap ('\n' :: ·) := by
  induction t generalizing first rest with
  | nil =>
    cases h
    rfl
  | cons c cs ih =>
    obtain ⟨l, ls, hls⟩ := List.exists_cons_of_ne_nil (lines_ne_nil cs)
    rw [lines] at h
    split at h
    next hc =>
      subst hc
      rw [hls] at h
      cases h
      exact congrArg ('\n' :: ·) (ih hls)
    next =>
      rw [hls] at h
      cases h
      exact congrArg (c :: ·) (ih hls)

theorem newline_notMem_of_mem_lines {t l : Text} (h : l ∈ t.lines) : '\n' ∉ l := by
  induction t generalizing l with
  | nil =>
    obtain rfl := List.mem_singleton.mp h
    exact List.not_mem_nil
  | cons c cs ih =>
    by_cases hc : c = '\n'
    · rw [lines, if_pos hc] at h
      rcases List.mem_cons.mp h with rfl | h
      · exact List.not_mem_nil
      · exact ih h
    · obtain ⟨first, rest, hlines⟩ := List.exists_cons_of_ne_nil (lines_ne_nil cs)
      rw [lines, if_neg hc, hlines] at h
      rcases List.mem_cons.mp h with rfl | h
      · have hfirst : '\n' ∉ first := ih (hlines ▸ List.mem_cons_self)
        exact List.not_mem_cons_of_ne_of_not_mem (Ne.symm hc) hfirst
      · exact ih (hlines ▸ List.mem_cons_of_mem first h)

/-- The text in front of a line, newline included, and behind it. -/
theorem eq_of_lines_append {t content : Text} {before after : List Text}
    (h : t.lines = before ++ content :: after) :
    t = before.flatMap (· ++ ['\n']) ++ (content ++ after.flatMap ('\n' :: ·)) := by
  have hmoved (ls : List Text) (u : Text) :
      ls.flatMap ('\n' :: ·) ++ '\n' :: u = '\n' :: (ls.flatMap (· ++ ['\n']) ++ u) := by
    induction ls with
    | nil => rfl
    | cons l ls ih => simp [ih]
  cases before with
  | nil => exact eq_of_lines h
  | cons first before =>
    rw [List.cons_append] at h
    rw [eq_of_lines h, List.flatMap_append, List.flatMap_cons, List.cons_append, hmoved]
    simp

theorem newlines_flatMap_lines {ls : List Text} (h : ∀ l ∈ ls, '\n' ∉ l) :
    newlines (ls.flatMap (· ++ ['\n'])) = ls.length := by
  induction ls with
  | nil => rfl
  | cons l ls ih =>
    obtain ⟨hl, hls⟩ := List.forall_mem_cons.mp h
    rw [List.flatMap_cons, newlines_append, newlines_append, ih hls, List.length_cons, newlines,
      List.count_eq_zero.mpr hl]
    exact Nat.add_comm _ _

end Stencil.Text
