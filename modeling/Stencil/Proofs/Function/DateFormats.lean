/- Formats of dates one behind the other, and formats without codes. -/
import Mathlib.Algebra.Group.Nat.Even
import Mathlib.Data.List.Induction
import Stencil.Function.Calendar

namespace Stencil

/-- How many backslashes a format ends in. -/
def endBackslashes (f : Text) : Nat := (f.reverse.takeWhile (· = '\\')).length

/-- Whether the next character of a format is plain, since a backslash stands in front of it. -/
def insideEscape (f : Text) : Bool := f.foldl (fun inside c => !inside && c = '\\') false

/-- The text with a backslash in front of each character. -/
def backslashed (t : Text) : Text := t.flatMap fun c => ['\\', c]

section Escapes

variable (f g : Text) (c : Char)

theorem endBackslashes_concat :
    endBackslashes (f ++ [c]) = if c = '\\' then endBackslashes f + 1 else 0 := by
  unfold endBackslashes
  rw [List.reverse_concat, List.takeWhile_cons]
  by_cases hc : c = '\\' <;> simp [hc]

theorem insideEscape_concat : insideEscape (f ++ [c]) = (!insideEscape f && c = '\\') := by
  rw [insideEscape, List.foldl_append]
  rfl

/-- A backslash is plain itself if it stands behind an odd number of others. -/
theorem insideEscape_iff : insideEscape f = true ↔ ¬ Even (endBackslashes f) := by
  induction f using List.reverseRecOn with
  | nil => decide
  | append_singleton f c ih =>
    rw [insideEscape_concat, endBackslashes_concat]
    by_cases hc : c = '\\'
    · rw [if_pos hc, Nat.even_add_one, ← ih, hc]
      simp
    · simp [hc]

theorem insideEscape_backslash_cons : insideEscape ('\\' :: c :: f) = insideEscape f := rfl

theorem insideEscape_cons {c : Char} (hc : c ≠ '\\') : insideEscape (c :: f) = insideEscape f := by
  unfold insideEscape
  rw [List.foldl_cons]
  simp [hc]

end Escapes

namespace Moment

theorem format_cons (m : Moment) {c : Char} (hc : c ≠ '\\') (f : Text) :
    m.format (c :: f) = m.code c ++ m.format f := by
  rw [format.eq_def]
  split
  next h => cases h
  next h =>
    cases h
    exact absurd rfl hc
  next h =>
    cases h
    exact absurd rfl hc
  next h =>
    cases h
    rfl

/-- Formats are read on their own, unless one ends between a backslash and what it makes plain. -/
theorem format_append_of_outside (m : Moment) {f : Text} (hf : insideEscape f = false) (g : Text) :
    m.format (f ++ g) = m.format f ++ m.format g := by
  induction f using format.induct with
  | case1 => rfl
  | case2 => cases hf
  | case3 c f ih =>
    rw [insideEscape_backslash_cons] at hf
    exact congrArg (c :: ·) (ih hf)
  | case4 c f hlone hescape ih =>
    have hc : c ≠ '\\' := by
      rintro rfl
      cases f with
      | nil => exact hlone rfl rfl
      | cons d f => exact hescape d f rfl rfl
    rw [insideEscape_cons f hc] at hf
    rw [List.cons_append, format_cons m hc, format_cons m hc, ih hf, List.append_assoc]

theorem format_backslashed (m : Moment) (t : Text) : m.format (backslashed t) = t := by
  induction t with
  | nil => rfl
  | cons c t ih => exact congrArg (c :: ·) ih

/-- Any moment is printed by one format behind another as by each of them, unless the first ends in
a backslash that no other one makes plain. A text with a backslash in front of each character is
printed as it is. -/
theorem format_append (m : Moment) :
    (∀ f g : Text, Even (endBackslashes f) → m.format (f ++ g) = m.format f ++ m.format g) ∧
      ∀ t : Text, m.format (backslashed t) = t := by
  refine ⟨fun f g hf => ?_, m.format_backslashed⟩
  apply m.format_append_of_outside
  rw [Bool.eq_false_iff, Ne, insideEscape_iff]
  exact not_not_intro hf

/-- The first of two formats ends in a plain backslash, so the second starts with a code. -/
theorem format_append_backslash :
    let m : Moment := Clock.momentAt 0 0
    let f := "\\Y\\\\".toList
    let g := "Y\\-".toList
    let t := "Y\\m".toList
    Even (endBackslashes f) ∧ m.format (f ++ g) = m.format f ++ m.format g ∧
      m.format (f ++ g) = "Y\\1970-".toList ∧ m.format (backslashed t) = t := by
  intro m f g t
  have hf : Even (endBackslashes f) := by decide
  obtain ⟨happend, hplain⟩ := m.format_append
  exact ⟨hf, happend f g hf, by decide, hplain t⟩

end Moment

end Stencil
