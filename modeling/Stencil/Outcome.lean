/- Results that may be errors. -/

namespace Stencil

variable {ε α β : Type}

instance decidableEqExcept [DecidableEq ε] [DecidableEq α] : DecidableEq (Except ε α)
  | .ok a, .ok b => decidable_of_iff (a = b) (by simp)
  | .error d, .error e => decidable_of_iff (d = e) (by simp)
  | .ok _, .error _ => .isFalse nofun
  | .error _, .ok _ => .isFalse nofun

namespace Outcome

theorem map_eq_ok_iff {f : α → β} {r : Except ε α} {b : β} :
    r.map f = .ok b ↔ ∃ a, r = .ok a ∧ f a = b := by
  cases r <;> simp [Except.map]

theorem map_eq_error_iff {f : α → β} {r : Except ε α} {e : ε} :
    r.map f = .error e ↔ r = .error e := by
  cases r <;> simp [Except.map]

theorem mapError_eq_ok_iff {δ : Type} {f : ε → δ} {r : Except ε α} {a : α} :
    r.mapError f = .ok a ↔ r = .ok a := by
  cases r with
  | ok b => exact ⟨fun h => by cases h; rfl, fun h => by cases h; rfl⟩
  | error e => exact ⟨nofun, nofun⟩

theorem exists_error_iff {r : Except ε α} : (∃ e, r = .error e) ↔ ¬ ∃ a, r = .ok a := by
  cases r <;> simp

end Outcome

/-- What a computation ends in, unless it breaks off before. -/
abbrev Attempt (ε α : Type) := Option (Except ε α)

namespace Attempt

def andThen (r : Attempt ε α) (next : α → Attempt ε β) : Attempt ε β :=
  match r with
  | none => none
  | some (.error e) => some (.error e)
  | some (.ok a) => next a

@[simp] theorem ok_andThen (a : α) (next : α → Attempt ε β) :
    andThen (some (.ok a)) next = next a := rfl

@[simp] theorem error_andThen (e : ε) (next : α → Attempt ε β) :
    andThen (some (.error e)) next = some (.error e) := rfl

end Attempt

end Stencil
