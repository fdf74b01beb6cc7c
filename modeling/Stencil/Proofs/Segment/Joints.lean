/- Joining texts stops at a segment that is no text. -/
import Stencil.Proofs.Segment.Seams

namespace Stencil

variable {s z : Segment}

theorem prependText_prependText (t u : Text) (ss : List Segment) :
    prependText t (prependText u ss) = prependText (t ++ u) ss := by
  cases ss with
  | nil => rfl
  | cons s ss => cases s <;> simp [prependText]

theorem prependText_of_ne_text (hs : ∀ u, s ≠ .text u) (t : Text) (ss : List Segment) :
    prependText t (s :: ss) = .text t :: s :: ss := by
  cases s with
  | text u => exact absurd rfl (hs u)
  | _ => rfl

theorem prependText_append_cons (hs : ∀ u, s ≠ .text u) (t : Text) (ss ts : List Segment) :
    prependText t (ss ++ s :: ts) = prependText t ss ++ s :: ts := by
  cases ss with
  | nil => exact prependText_of_ne_text hs t ts
  | cons x ss =>
    cases x with
    | text u => rfl
    | escapedOpening opening => rfl
    | directive opening lead name argument closing => rfl
    | tag kind opening body closing => rfl

theorem joinTexts_append_cons (hs : ∀ u, s ≠ .text u) (ss ts : List Segment) :
    joinTexts (ss ++ s :: ts) = joinTexts ss ++ s :: joinTexts ts := by
  induction ss using joinTexts.induct with
  | case1 => exact joinTexts_of_ne_text hs ts
  | case2 t ss ih => rw [List.cons_append, joinTexts, joinTexts, ih, prependText_append_cons hs]
  | case3 x ss hx ih =>
    rw [List.cons_append, joinTexts_of_ne_text hx, joinTexts_of_ne_text hx, ih, List.cons_append]

/-- Segments between two that are no texts are joined on their own, and so is what stands around. -/
theorem joinTexts_around (hs : ∀ u, s ≠ .text u) (hz : ∀ u, z ≠ .text u)
    (before inner after : List Segment) :
    joinTexts (before ++ (s :: (inner ++ [z]) ++ after)) =
      joinTexts before ++ (joinTexts (s :: (inner ++ [z])) ++ joinTexts after) := by
  have hclosed : joinTexts (s :: (inner ++ [z])) = s :: (joinTexts inner ++ [z]) := by
    rw [joinTexts_of_ne_text hs, joinTexts_append_cons hz]
    rfl
  rw [hclosed, List.cons_append, joinTexts_append_cons hs, List.append_assoc,
    List.singleton_append, joinTexts_append_cons hz, List.cons_append, List.append_assoc,
    List.singleton_append]

end Stencil
