/- The lines that the lexer reports. -/
import Stencil.Segment.Lexer

namespace Stencil

/-- The line is one of a text that starts on line `first`. -/
structure Text.HasLine (first : Nat) (t : Text) (line : Nat) : Prop where
  first_le : first ≤ line
  le_last : line ≤ first + t.newlines

namespace Text.HasLine

variable {first line : Nat} {t u : Text}

theorem last (first : Nat) (t : Text) : HasLine first t (first + t.newlines) :=
  ⟨Nat.le_add_right _ _, Nat.le_refl _⟩

theorem start (first : Nat) (t : Text) : HasLine first t first :=
  ⟨Nat.le_refl _, Nat.le_add_right _ _⟩

theorem append_left (h : HasLine (first + t.newlines) u line) : HasLine first (t ++ u) line := by
  obtain ⟨hfirst, hlast⟩ := h
  refine ⟨Nat.le_trans (Nat.le_add_right _ _) hfirst, ?_⟩
  rwa [newlines_append, ← Nat.add_assoc]

theorem append_right (h : HasLine first t line) (u : Text) : HasLine first (t ++ u) line := by
  obtain ⟨hfirst, hlast⟩ := h
  refine ⟨hfirst, Nat.le_trans hlast ?_⟩
  rw [newlines_append, ← Nat.add_assoc]
  exact Nat.le_add_right _ _

theorem cons {c : Char} (h : HasLine (lineAfter first c) t line) : HasLine first (c :: t) line := by
  rw [lineAfter_eq] at h
  exact h.append_left

theorem mono (h : HasLine first t line) (hu : t <+: u) : HasLine first u line := by
  obtain ⟨v, rfl⟩ := hu
  exact h.append_right v

end Text.HasLine

open Text (HasLine)

/-- A region that never closes is reported where the text ends, or a string in it is. -/
theorem hasLine_of_bodyBefore {closing : Text} {state : BodyState} {line : Nat} {t : Text}
    {e : Unclosed} (h : bodyBefore closing state line t = .error e) (kind : RegionKind)
    (openedAt : Nat) : HasLine line t (e.error kind openedAt closing).line := by
  induction t generalizing state line with
  | nil =>
    cases h
    cases state <;> exact .start line []
  | cons c cs ih =>
    rw [bodyBefore] at h
    split at h
    next => cases h
    next => exact (ih (Outcome.map_eq_error_iff.mp h)).cons

theorem hasLine_of_segmentAt? {os : List Opener} {line : Nat} {t : Text} {e : LexError}
    (h : segmentAt? os line t = .error e) : HasLine line t e.line := by
  unfold segmentAt? at h
  split at h
  next => cases h
  next =>
    split at h
    next o ho =>
      have hregion := Outcome.map_eq_error_iff.mp h
      rw [← append_drop_of_matchOpener? ho]
      unfold regionAfter at hregion
      split at hregion
      next hbody =>
        cases hregion
        exact (hasLine_of_bodyBefore hbody o.kind line).append_left
      next body _ =>
        unfold regionSegment at hregion
        split at hregion
        next => cases hregion
        next =>
          dsimp only at hregion
          split at hregion
          next =>
            cases hregion
            exact .start line _
          next => cases hregion
    next => cases h

theorem hasLine_of_segmentsFrom {os : List Opener} {skip line : Nat} {t : Text} {e : LexError}
    (h : segmentsFrom os skip line t = .error e) : HasLine line t e.line := by
  induction t generalizing skip line with
  | nil => cases skip <;> cases h
  | cons c cs ih =>
    cases skip with
    | succ skip => exact (ih h).cons
    | zero =>
      rw [segmentsFrom] at h
      split at h
      next hfirst =>
        cases h
        exact hasLine_of_segmentAt? hfirst
      next => exact (ih (Outcome.map_eq_error_iff.mp h)).cons
      next => exact (ih (Outcome.map_eq_error_iff.mp h)).cons

/-- The lexer reports a line of the text. -/
theorem hasLine_of_segments {ds : DelimiterSet} {t : Text} {e : LexError}
    (h : segments ds t = .error e) : HasLine 1 t e.line :=
  hasLine_of_segmentsFrom h

end Stencil
