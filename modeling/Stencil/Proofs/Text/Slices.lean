/- Slices that are cut further: in two, or where a kind of character ends. -/
import Stencil.Text.Slice

namespace Stencil.Text

variable {t u v : Text} {start stop : Nat}

theorem stop_of_slice? (h : t.slice? start stop = some u) : stop = start + u.byteSize := by
  obtain ⟨front, rear, -, rfl, rfl⟩ := slice?_eq_some_iff.mp h
  exact byteSize_append front u

/-- A slice can be cut in two. -/
theorem slice?_append (h : t.slice? start stop = some (u ++ v)) :
    t.slice? start (start + u.byteSize) = some u ∧
      t.slice? (start + u.byteSize) stop = some v := by
  obtain ⟨front, rear, rfl, rfl, rfl⟩ := slice?_eq_some_iff.mp h
  have hsplit : front ++ (u ++ v ++ rear) = (front ++ u) ++ (v ++ rear) := by
    rw [List.append_assoc u, ← List.append_assoc front]
  refine ⟨slice?_of_eq (congrArg (front ++ ·) (List.append_assoc u v rear)) rfl rfl,
    slice?_of_eq hsplit (byteSize_append front u) ?_⟩
  rw [byteSize_append, byteSize_append, Nat.add_assoc]

theorem byteSize_takeWhile_add (p : Char → Bool) (u : Text) :
    byteSize (u.takeWhile p) + byteSize (u.dropWhile p) = u.byteSize := by
  rw [← byteSize_append, List.takeWhile_append_dropWhile]

theorem slice?_takeWhile (p : Char → Bool) (h : t.slice? start stop = some u) :
    t.slice? start (start + byteSize (u.takeWhile p)) = some (u.takeWhile p) := by
  rw [← List.takeWhile_append_dropWhile (p := p) (l := u)] at h
  exact (slice?_append h).1

theorem slice?_dropWhile (p : Char → Bool) (h : t.slice? start stop = some u) :
    t.slice? (start + byteSize (u.takeWhile p)) stop = some (u.dropWhile p) := by
  rw [← List.takeWhile_append_dropWhile (p := p) (l := u)] at h
  exact (slice?_append h).2

end Stencil.Text
