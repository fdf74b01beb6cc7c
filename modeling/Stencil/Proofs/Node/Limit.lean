/- Parsing with a higher limit, which only matters to what ran into the lower one. -/
import Stencil.Node.Parser

namespace Stencil

namespace Cause

/-- Something was nested too deep. -/
def IsLimit (c : Cause) : Prop := c.kind = .recursionLimit

end Cause

abbrev Failure.IsLimit (f : Failure) : Prop := f.cause.IsLimit

namespace Outcome

variable {ε α β : Type} {cut : ε → Prop} {r u : Except ε α}

/-- The second result is the first, unless that was cut short. -/
def KeptUnless (cut : ε → Prop) (r u : Except ε α) : Prop := u = r ∨ ∃ e, r = .error e ∧ cut e

theorem KeptUnless.refl (r : Except ε α) : KeptUnless cut r r := .inl rfl

theorem KeptUnless.of_cut {e : ε} (he : cut e) (u : Except ε α) : KeptUnless cut (.error e) u :=
  .inr ⟨e, rfl, he⟩

/-- What goes on from equal results, and from any where the first was cut short, goes on from
these. -/
@[elab_as_elim]
theorem KeptUnless.elim {motive : Except ε α → Except ε α → Prop} (h : KeptUnless cut r u)
    (same : ∀ x, motive x x) (short : ∀ e x, cut e → motive (.error e) x) : motive r u := by
  rcases h with rfl | ⟨e, rfl, he⟩
  · exact same u
  · exact short e u he

theorem KeptUnless.eq_ok (h : KeptUnless cut r u) {a : α} (hr : r = .ok a) : u = .ok a := by
  rcases h with rfl | ⟨e, he, -⟩
  · exact hr
  · cases hr.symm.trans he

theorem KeptUnless.map (h : KeptUnless cut r u) (f : α → β) :
    KeptUnless cut (r.map f) (u.map f) :=
  h.elim (fun _ => .refl _) fun _ _ he => .of_cut he _

end Outcome

open Outcome

namespace NodeProgress

variable {limit more : Nat} {s : NodeProgress}

theorem keptUnless_push (hlimit : limit ≤ more) (b : OpenBlock) (s : NodeProgress) :
    KeptUnless Cause.IsLimit (s.push limit b) (s.push more b) := by
  unfold push
  split
  next h => rw [if_pos (Nat.lt_of_lt_of_le h hlimit)]; exact .refl _
  next => exact .inr ⟨_, rfl, rfl⟩

theorem keptUnless_atDirective (hlimit : limit ≤ more) (line next : Nat) (name : Text)
    (expression : Option Text) :
    KeptUnless Cause.IsLimit (s.atDirective limit line next name expression)
      (s.atDirective more line next name expression) := by
  unfold atDirective
  cases Keyword.ofName? name with
  | none => exact .refl _
  | some k =>
    cases k with
    | part =>
      dsimp only
      split
      next => exact .refl _
      next =>
        cases argument name expression with
        | error e => exact .refl _
        | ok part => exact (keptUnless_push hlimit _ s).map _
    | ifThen =>
      dsimp only
      cases argument name expression with
      | error e => exact .refl _
      | ok test => exact keptUnless_push hlimit _ s
    | _ => exact .refl _

theorem keptUnless_step (hlimit : limit ≤ more) (s : NodeProgress) (segment : Segment) :
    KeptUnless Failure.IsLimit (s.step limit segment) (s.step more segment) := by
  cases segment with
  | directive opening lead name argument closing =>
    unfold step
    dsimp only
    refine (keptUnless_atDirective hlimit s.line _ name _).elim (fun x => .refl _) fun e x he => ?_
    exact .inr ⟨⟨e, s.line⟩, rfl, he⟩
  | _ => exact .refl _

theorem keptUnless_run (hlimit : limit ≤ more) (s : NodeProgress) (ss : List Segment) :
    KeptUnless Failure.IsLimit (s.run limit ss) (s.run more ss) := by
  induction ss generalizing s with
  | nil => exact .refl _
  | cons segment ss ih =>
    rw [run, run]
    refine (keptUnless_step hlimit s segment).elim (fun x => ?_) fun _ _ hf => .of_cut hf _
    cases x with
    | ok next => exact ih next
    | error f => exact .refl _

end NodeProgress

theorem keptUnless_parseNodes {limit more : Nat} (hlimit : limit ≤ more) (inPart : Bool)
    (ss : List Segment) :
    KeptUnless Failure.IsLimit (parseNodes limit inPart ss) (parseNodes more inPart ss) := by
  unfold parseNodes
  exact (NodeProgress.keptUnless_run hlimit (.start inPart) ss).elim (fun _ => .refl _)
    fun _ _ hf => .of_cut hf _

end Stencil
