/- How doubles are told from integers by the way they are written. -/
import Stencil.Usual

namespace Stencil

/-- No double is written with a sign and digits alone. -/
def Platform.MarksDoubles (p : Platform) : Prop :=
  ∀ x, '.' ∈ p.doubleText x ∨ 'e' ∈ p.doubleText x

namespace Double

theorem point_mem_plainText (ds : Text) (e : Int) : '.' ∈ plainText ds e := by
  unfold plainText
  split <;> simp

theorem mark_mem_scientificText (ds : Text) (e : Int) : 'e' ∈ scientificText ds e := by
  have hmark : 'e' ∈ (if e < 0 then ['e', '-'] else ['e', '+'] : Text) := by
    split <;> exact List.mem_cons_self
  exact List.mem_append_left _ (List.mem_append_right _ hmark)

theorem mark_mem_magnitudeText (m : Nat) : '.' ∈ magnitudeText m ∨ 'e' ∈ magnitudeText m := by
  unfold magnitudeText
  split
  · exact .inl (by decide)
  · dsimp only
    split
    · exact .inl (point_mem_plainText _ _)
    · exact .inr (mark_mem_scientificText _ _)

theorem mark_mem_text (x : Double) : '.' ∈ x.text ∨ 'e' ∈ x.text := by
  unfold text
  split
  · exact (mark_mem_magnitudeText x.magnitude).imp (List.mem_cons_of_mem _) (List.mem_cons_of_mem _)
  · exact mark_mem_magnitudeText x.magnitude

end Double

theorem Platform.usual_marksDoubles : Platform.usual.MarksDoubles := Double.mark_mem_text

end Stencil
