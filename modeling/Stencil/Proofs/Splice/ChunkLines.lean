/- The lines that a splice answers with are lines of the contents. -/
import Stencil.Proofs.Splice.Faults
import Stencil.Splice.Tags

namespace Stencil

/-- Whatever is asked of the chunk, it answers with lines of the contents. -/
def Chunk.LiesIn (contents : Text) (c : Chunk) : Prop :=
  ∀ n, Text.HasLine 1 contents (c.lineAt n)

variable {contents text : Text}

namespace Splice

theorem liesIn_whole (t : Text) : ∀ c ∈ whole t, c.LiesIn t := by
  intro c hc n
  rw [List.mem_singleton.mp hc]
  have hfront : t.take n ++ t.drop n <+: t := by
    simp only [List.take_append_drop, List.prefix_rfl]
  exact .of_front hfront

theorem hasLine_lineAt {s : Splice} (h : ∀ c ∈ s, c.LiesIn contents) (n : Nat) :
    Text.HasLine 1 contents (s.lineAt n) := by
  induction s generalizing n with
  | nil => exact .start 1 contents
  | cons c s ih =>
    obtain ⟨hc, hs⟩ := List.forall_mem_cons.mp h
    cases s with
    | nil => exact hc n
    | cons d ds =>
      rw [lineAt]
      split
      next => exact hc n
      next => exact ih hs _

end Splice

/-- Text that stands at the site is copied on lines of the contents. -/
theorem Site.Holds.liesIn {σ : Site} (hσ : σ.Holds contents text) {before t : Text}
    (ht : before ++ t <+: text) :
    Chunk.LiesIn contents ⟨t, σ.origin.line before.endLine, σ.origin.advances⟩ := by
  intro n
  rw [σ.line_origin, σ.advances_origin]
  cases σ with
  | contents outer =>
    have hcontents := ((List.prefix_append_right_inj outer).mpr ht).trans hσ
    rw [← List.append_assoc, ← List.take_append_drop n t, ← List.append_assoc] at hcontents
    have hline := Text.HasLine.of_front hcontents
    rwa [Text.endLine_append] at hline
  | elsewhere outer =>
    obtain ⟨s, -, hs⟩ := hσ
    exact .of_front hs

namespace Tracing

variable {g : Tracing} {r : Rendering} {budget : Nat} {part : Option ShownPart} {σ : Site}
  {ps : List PlacedNode} {s : Splice}

/-- Nodes that are carried out have the lines of what stands in the contents. -/
theorem Works.liesIn (hr : g.Renders r) (hg : g.BodiesStand contents)
    (h : g.Works budget part σ ps) (hs : r.renderAt budget part σ ps = .ok s)
    (hσ : σ.Holds contents text) (hps : BeginIn text ps) : ∀ c ∈ s, c.LiesIn contents := by
  induction h generalizing s text with
  | nil =>
    cases hs
    nofun
  | text _ ih =>
    obtain ⟨first, rest, hfirst, hrest, rfl⟩ := Rendering.renderNodes_cons_eq_ok_iff.mp hs
    cases hfirst
    obtain ⟨x, rfl, hx⟩ := hps.exists_head
    exact List.forall_mem_cons.mpr ⟨hσ.liesIn hx, ih hrest hσ hps.tail⟩
  | part _ ih =>
    obtain ⟨first, rest, hfirst, hrest, rfl⟩ := Rendering.renderNodes_cons_eq_ok_iff.mp hs
    cases hfirst
    exact ih hrest hσ hps.tail
  | body hincludes hreads _ _ ihbody ih =>
    obtain ⟨first, rest, hfirst, hrest, rfl⟩ := Rendering.renderNodes_cons_eq_ok_iff.mp hs
    rw [hr.renderNode_of_includes hincludes, hr.expand_of_reads hreads] at hfirst
    obtain ⟨ss, hss, hqs⟩ := hreads
    have hsite := hincludes.holds hg hσ hps
    have hbody := ihbody hfirst hsite (beginIn_of_segments hss hqs)
    exact List.forall_mem_append.mpr ⟨hbody, ih hrest hσ hps.tail⟩
  | conditional hv _ _ ihtaken ih =>
    obtain ⟨first, rest, hfirst, hrest, rfl⟩ := Rendering.renderNodes_cons_eq_ok_iff.mp hs
    rw [hr.renderNode_of_eval hv] at hfirst
    exact List.forall_mem_append.mpr ⟨ihtaken hfirst hσ hps.taken, ih hrest hσ hps.tail⟩

end Tracing

/-- The splice of the contents answers with lines of the contents. -/
theorem Template.liesIn_of_runDirectives {t u : Template} {fs : Functions} {limits : Limits}
    {s : Splice} (h : t.runDirectives fs limits contents = (u, .ok s)) :
    ∀ c ∈ s, c.LiesIn contents := by
  obtain ⟨nodes, parts, hnodes, hparts, rfl, hs⟩ := exists_of_runDirectives h
  obtain ⟨ss, ps, hss, hps, rfl⟩ := nodesOf_eq_ok_iff.mp hnodes
  have hr : ((t.register parts).tracing fs limits.directiveDepth ps).Renders _ :=
    renders_tracing hparts
  have hworks := Tracing.works_of_render (σ := .contents []) hr hs
  have hcontents : (Site.contents []).Holds contents contents := List.prefix_rfl
  refine hworks.liesIn hr ?_ hs hcontents (beginIn_of_segments hss hps)
  exact bodiesStand_tracing hparts (standIn_of_segments hss hps)

namespace Tagging

variable {g : Tagging} {s : Splice} {f : Failure}

theorem exists_lineAt_of_replaceFrom {position : Nat} {ss : List Segment}
    (h : g.replaceFrom s position ss = .error f) : ∃ n, f.line = s.lineAt n := by
  induction ss generalizing position with
  | nil => cases h
  | cons segment ss ih =>
    rw [replaceFrom] at h
    split at h
    next =>
      cases h
      exact ⟨position, rfl⟩
    next =>
      split at h
      next hrest =>
        cases h
        exact ih hrest
      next => cases h

/-- Faults of tags are reported on lines of the splice, also those in the values of tags. -/
theorem exists_lineAt_of_run (h : g.run s = .error f) : ∃ n, f.line = s.lineAt n := by
  rw [run] at h
  split at h
  next =>
    cases h
    exact ⟨_, rfl⟩
  next => exact exists_lineAt_of_replaceFrom h

theorem hasLine_of_run (hs : ∀ c ∈ s, c.LiesIn contents) (h : g.run s = .error f) :
    Text.HasLine 1 contents f.line := by
  obtain ⟨n, hn⟩ := exists_lineAt_of_run h
  rw [hn]
  exact Splice.hasLine_lineAt hs n

end Tagging

end Stencil
