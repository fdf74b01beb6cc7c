/- The lines that are reported for segments that do not parse. -/
import Stencil.Proofs.Node.Steps
import Stencil.Proofs.Segment.ErrorLines
import Stencil.Splice.Parts

namespace Stencil

/-- A directive of the segments starts on the line. -/
def OnDirective (ss : List Segment) (line : Nat) : Prop :=
  ∃ front d rear, ss = front ++ d :: rear ∧ d.isDirective = true ∧ line = (source front).endLine

theorem OnDirective.append {ss : List Segment} {line : Nat} (h : OnDirective ss line)
    (ts : List Segment) : OnDirective (ss ++ ts) line := by
  obtain ⟨front, d, rear, rfl, hd, hline⟩ := h
  refine ⟨front, d, rear ++ ts, ?_, hd, hline⟩
  rw [List.append_assoc, List.cons_append]

theorem OnDirective.hasLine {ss : List Segment} {line : Nat} (h : OnDirective ss line) :
    Text.HasLine 1 (source ss) line := by
  obtain ⟨front, d, rear, rfl, -, rfl⟩ := h
  rw [source_append]
  exact (Text.HasLine.last 1 (source front)).append_right _

namespace NodeProgress

variable {limit : Nat} {read ss : List Segment} {s next : NodeProgress} {segment : Segment}
  {f : Failure}

/-- The progress after reading these segments. Its blocks were opened by directives among them. -/
structure HasRead (read : List Segment) (s : NodeProgress) : Prop where
  line : s.line = (source read).endLine
  opened : ∀ b ∈ s.enclosing, OnDirective read b.opened

theorem hasRead_start (inPart : Bool) : HasRead [] (start inPart) := ⟨rfl, nofun⟩

theorem HasRead.onDirective (h : HasRead read s) (hs : segment.isDirective = true)
    (rest : List Segment) : OnDirective (read ++ segment :: rest) s.line :=
  ⟨read, segment, rest, rfl, hs, h.line⟩

theorem isDirective_of_directs {k : Keyword} {x : Option Text} (h : Segment.Directs k x segment) :
    segment.isDirective = true := by
  cases h
  rfl

theorem isDirective_of_requires {k : Keyword} {e : Expr} (h : segment.Requires k e) :
    segment.isDirective = true := by
  obtain ⟨x, hk, -⟩ := h
  exact isDirective_of_directs hk

/-- The blocks stay open that were, or the directive at hand opens one more. -/
theorem opened_of_step (hstep : s.step limit segment = .ok next) {b : OpenBlock}
    (hb : b ∈ next.enclosing) : (∃ c ∈ s.enclosing, c.opened = b.opened) ∨
      segment.isDirective = true ∧ b.opened = s.line := by
  rcases step_eq_ok_iff.mp hstep with htakes | hcloses
  · cases htakes with
    | text => exact .inl ⟨b, hb, rfl⟩
    | showPart => exact .inl ⟨b, hb, rfl⟩
    | showParent => exact .inl ⟨b, hb, rfl⟩
    | part hs =>
      rcases List.mem_cons.mp hb with rfl | hb
      · exact .inr ⟨isDirective_of_requires hs, rfl⟩
      · exact .inl ⟨b, hb, rfl⟩
    | ifThen hs =>
      rcases List.mem_cons.mp hb with rfl | hb
      · exact .inr ⟨isDirective_of_requires hs, rfl⟩
      · exact .inl ⟨b, hb, rfl⟩
  · -- The innermost block is closed, or goes on with another branch.
    have hkept : ∀ {c rest}, s.enclosing = c :: rest → (b.opened = c.opened ∨ b ∈ rest) →
        ∃ c ∈ s.enclosing, c.opened = b.opened := by
      intro c rest henclosing hor
      rw [henclosing]
      rcases hor with heq | hmem
      · exact ⟨c, List.mem_cons_self, heq.symm⟩
      · exact ⟨b, List.mem_cons_of_mem _ hmem, rfl⟩
    apply Or.inl
    cases hcloses with
    | endPart _ henclosing => exact hkept henclosing (.inr hb)
    | elseIf _ henclosing =>
      apply hkept henclosing
      apply (List.mem_cons.mp hb).imp_left
      intro heq
      rw [heq]
      rfl
    | otherwise _ henclosing =>
      apply hkept henclosing
      apply (List.mem_cons.mp hb).imp_left
      intro heq
      rw [heq]
      rfl
    | endBranch _ henclosing => exact hkept henclosing (.inr hb)
    | endOtherwise _ henclosing => exact hkept henclosing (.inr hb)

theorem HasRead.step (h : HasRead read s) (hstep : s.step limit segment = .ok next) :
    HasRead (read ++ [segment]) next where
  line := by
    rw [line_of_step hstep, h.line, source_append, source_singleton, Text.endLine_append]
  opened := by
    intro b hb
    rcases opened_of_step hstep hb with ⟨c, hc, heq⟩ | ⟨hs, hline⟩
    · rw [← heq]
      exact (h.opened c hc).append [segment]
    · rw [hline]
      exact h.onDirective hs []

theorem HasRead.run (h : HasRead read s) (hrun : s.run limit ss = .ok next) :
    HasRead (read ++ ss) next := by
  induction ss generalizing read s with
  | nil =>
    cases hrun
    rwa [List.append_nil]
  | cons segment ss ih =>
    rw [NodeProgress.run] at hrun
    split at hrun
    next mid hstep =>
      have hrest := ih (h.step hstep) hrun
      rwa [List.append_assoc] at hrest
    next => cases hrun

theorem HasRead.onDirective_of_run (h : HasRead read s) (hrun : s.run limit ss = .error f) :
    OnDirective (read ++ ss) f.line := by
  induction ss generalizing read s with
  | nil => cases hrun
  | cons segment ss ih =>
    rw [NodeProgress.run] at hrun
    split at hrun
    next mid hstep =>
      have hrest := ih (h.step hstep) hrun
      rwa [List.append_assoc] at hrest
    next hstep =>
      cases hrun
      unfold NodeProgress.step at hstep
      dsimp only at hstep
      split at hstep
      next =>
        split at hstep
        next => cases hstep
        next =>
          cases hstep
          exact h.onDirective rfl ss
      next => cases hstep

end NodeProgress

/-- What does not parse is reported at one of its directives. -/
theorem onDirective_of_parseNodes {limit : Nat} {inPart : Bool} {ss : List Segment} {f : Failure}
    (h : parseNodes limit inPart ss = .error f) : OnDirective ss f.line := by
  have hstart := NodeProgress.hasRead_start inPart
  unfold parseNodes at h
  split at h
  next final hrun =>
    unfold NodeProgress.finish at h
    split at h
    next => cases h
    next b rest henclosing =>
      cases h
      apply (hstart.run hrun).opened
      rw [henclosing]
      exact List.mem_cons_self
  next hrun =>
    cases h
    exact hstart.onDirective_of_run hrun

/-- A text that cannot be read is reported on one of its lines. -/
theorem hasLine_of_nodesOf {ds : DelimiterSet} {limit : Nat} {inPart : Bool} {t : Text}
    {f : Failure} (h : Rendering.nodesOf ds limit inPart t = .error f) :
    Text.HasLine 1 t f.line := by
  unfold Rendering.nodesOf at h
  split at h
  next hlex =>
    cases h
    exact hasLine_of_segments hlex
  next ss hss =>
    have hline := (onDirective_of_parseNodes h).hasLine
    rwa [source_segments hss] at hline

end Stencil
