/- Texts cut out by byte offsets. -/
import Stencil.Text.Basic

namespace Stencil.Text

/-- Splits a text behind so many bytes, unless these end within a character or there are not as
many. -/
def splitBytes? : Nat → Text → Option (Text × Text)
  | 0, t => some ([], t)
  | _ + 1, [] => none
  | n + 1, c :: cs =>
    if c.utf8Size ≤ n + 1 then
      (splitBytes? (n + 1 - c.utf8Size) cs).map fun parts => (c :: parts.1, parts.2)
    else none

/-- The text between two byte offsets, if they are ends of characters in that order. -/
def slice? (t : Text) (start stop : Nat) : Option Text :=
  if start ≤ stop then
    (splitBytes? start t).bind fun parts => (splitBytes? (stop - start) parts.2).map Prod.fst
  else none

theorem splitBytes?_eq_some_iff {n : Nat} {t front rest : Text} :
    splitBytes? n t = some (front, rest) ↔ t = front ++ rest ∧ front.byteSize = n := by
  induction t generalizing n front with
  | nil =>
    cases n with
    | zero =>
      rw [splitBytes?]
      constructor
      · intro h
        cases h
        exact ⟨rfl, rfl⟩
      · rintro ⟨heq, -⟩
        obtain ⟨rfl, rfl⟩ := List.append_eq_nil_iff.mp heq.symm
        rfl
    | succ n =>
      refine ⟨nofun, fun h => ?_⟩
      obtain ⟨rfl, rfl⟩ := List.append_eq_nil_iff.mp h.1.symm
      cases h.2
  | cons c cs ih =>
    have hpos := c.utf8Size_pos
    cases n with
    | zero =>
      rw [splitBytes?]
      constructor
      · intro h
        cases h
        exact ⟨rfl, rfl⟩
      · rintro ⟨heq, hsize⟩
        cases front with
        | nil => exact congrArg (fun u => some ([], u)) heq
        | cons d front =>
          cases heq
          rw [byteSize_cons] at hsize
          omega
    | succ n =>
      rw [splitBytes?]
      constructor
      · intro h
        split at h
        next hle =>
          obtain ⟨⟨front, rest⟩, hparts, hcons⟩ := Option.map_eq_some_iff.mp h
          cases hcons
          obtain ⟨rfl, hsize⟩ := ih.mp hparts
          refine ⟨rfl, ?_⟩
          rw [byteSize_cons]
          dsimp only at hsize ⊢
          omega
        next => cases h
      · rintro ⟨heq, hsize⟩
        cases front with
        | nil => cases hsize
        | cons d front =>
          cases heq
          rw [byteSize_cons] at hsize
          rw [if_pos (by omega), ih.mpr ⟨rfl, by omega⟩]
          rfl

/-- A slice is a text that stands behind so many bytes. -/
theorem slice?_eq_some_iff {t inner : Text} {start stop : Nat} :
    t.slice? start stop = some inner ↔ ∃ front rear, t = front ++ (inner ++ rear) ∧
      front.byteSize = start ∧ (front ++ inner).byteSize = stop := by
  rw [slice?]
  constructor
  · intro h
    split at h
    next hle =>
      obtain ⟨⟨front, rest⟩, hfront, h⟩ := Option.bind_eq_some_iff.mp h
      obtain ⟨⟨middle, rear⟩, hmiddle, rfl⟩ := Option.map_eq_some_iff.mp h
      obtain ⟨rfl, hstart⟩ := splitBytes?_eq_some_iff.mp hfront
      obtain ⟨heq, hsize⟩ := splitBytes?_eq_some_iff.mp hmiddle
      refine ⟨front, rear, congrArg (front ++ ·) heq, hstart, ?_⟩
      rw [byteSize_append]
      dsimp only at hsize ⊢
      omega
    next => cases h
  · rintro ⟨front, rear, rfl, rfl, rfl⟩
    rw [byteSize_append, if_pos (Nat.le_add_right _ _), Nat.add_sub_cancel_left,
      splitBytes?_eq_some_iff.mpr ⟨rfl, rfl⟩, Option.bind_some,
      splitBytes?_eq_some_iff.mpr ⟨rfl, rfl⟩]
    rfl

theorem slice?_of_eq {t front inner rear : Text} (h : t = front ++ (inner ++ rear))
    {start stop : Nat} (hstart : front.byteSize = start)
    (hstop : start + inner.byteSize = stop) : t.slice? start stop = some inner := by
  refine slice?_eq_some_iff.mpr ⟨front, rear, h, hstart, ?_⟩
  rw [byteSize_append, hstart, hstop]

theorem slice?_tail {t inner : Text} {c : Char} {start stop : Nat}
    (h : t.slice? start stop = some (c :: inner)) :
    t.slice? (start + c.utf8Size) stop = some inner := by
  obtain ⟨front, rear, rfl, rfl, rfl⟩ := slice?_eq_some_iff.mp h
  refine slice?_eq_some_iff.mpr ⟨front ++ [c], rear, ?_, byteSize_append _ _, ?_⟩
  · rw [List.append_assoc]
    rfl
  · rw [List.append_assoc]
    rfl

end Stencil.Text
