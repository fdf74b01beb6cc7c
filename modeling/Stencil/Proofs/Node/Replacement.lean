/- A tree of directives in place of another one with a like node. -/
import Stencil.Proofs.Node.Inlining

namespace Stencil

variable {R : List Node → List Node → Prop}

theorem nodesMoved_zero (ns : List Node) : nodesMoved 0 ns = ns := by
  induction ns using nodesInduction with
  | nil => rfl
  | text t line ns ih => simp only [nodesMoved, Node.moved, Nat.add_zero, ih]
  | part name body children line bodyLine ns hchildren ih =>
    simp only [nodesMoved, Node.moved, Nat.add_zero, hchildren, ih]
  | showPart name line ns ih => simp only [nodesMoved, Node.moved, Nat.add_zero, ih]
  | showParent line ns ih => simp only [nodesMoved, Node.moved, Nat.add_zero, ih]
  | conditional test yes no line ns hyes hno ih =>
    simp only [nodesMoved, Node.moved, Nat.add_zero, hyes, hno, ih]

/-- Nodes are alike wherever they stand. -/
theorem NodeCongruence.moved (hR : NodeCongruence R) (lines lines' : Nat) (ns : List Node) :
    R (nodesMoved lines ns) (nodesMoved lines' ns) := by
  induction ns using nodesInduction with
  | nil => exact hR.refl []
  | text t line ns ih => exact hR.append (hR.text t _ _) ih
  | part name body children line bodyLine ns _ ih =>
    exact hR.append (hR.part name body _ _ _ _ _ _) ih
  | showPart name line ns ih => exact hR.append (hR.showPart name _ _) ih
  | showParent line ns ih => exact hR.append (hR.showParent _ _) ih
  | conditional test yes no line ns hyes hno ih =>
    exact hR.append (hR.conditional test _ _ hyes hno) ih

theorem NodeCongruence.trees (hR : NodeCongruence R) (before before' : Text)
    (ts : List SegmentTree) :
    R (PlacedNode.nodes (placedFrom before ts)) (PlacedNode.nodes (placedFrom before' ts)) := by
  have hmoved := hR.moved before.newlines before'.newlines (PlacedNode.nodes (placedFrom [] ts))
  rw [← nodes_placedFrom_behind, ← nodes_placedFrom_behind, List.append_nil,
    List.append_nil] at hmoved
  exact hmoved

theorem NodeCongruence.branches (hR : NodeCongruence R) (before before' : Text) (t : BranchTree) :
    R (PlacedNode.nodes (t.placed before)) (PlacedNode.nodes (t.placed before')) := by
  have hmoved := hR.moved before.newlines before'.newlines (PlacedNode.nodes (t.placed []))
  rw [← t.nodes_placed_behind, ← t.nodes_placed_behind, List.append_nil,
    List.append_nil] at hmoved
  exact hmoved

namespace NodeProgress

variable {limit more : Nat} {s u next : NodeProgress} {segment : Segment} {before : List Segment}

theorem inPart_of_step (hs : s.enclosing.any OpenBlock.isPart = false → s.inPart = false)
    (h : s.step limit segment = .ok next)
    (hnext : next.enclosing.any OpenBlock.isPart = false) : next.inPart = false := by
  rcases step_eq_ok_iff.mp h with htakes | hcloses
  · cases htakes with
    | text _ => exact hs hnext
    | showPart _ => exact hs hnext
    | showParent _ _ => exact hs hnext
    | part _ _ _ => cases hnext
    | ifThen _ _ => exact hs hnext
  · cases hcloses with
    | endPart _ _ => rfl
    | elseIf _ hopen => exact hs (by rw [hopen]; exact hnext)
    | otherwise _ hopen => exact hs (by rw [hopen]; exact hnext)
    | endBranch _ hopen => exact hs (by rw [hopen]; exact hnext)
    | endOtherwise _ hopen => exact hs (by rw [hopen]; exact hnext)

theorem inPart_of_run {ss : List Segment}
    (hs : s.enclosing.any OpenBlock.isPart = false → s.inPart = false)
    (h : s.run limit ss = .ok next) :
    next.enclosing.any OpenBlock.isPart = false → next.inPart = false := by
  induction ss generalizing s with
  | nil =>
    cases h
    exact hs
  | cons segment ss ih =>
    rw [run] at h
    split at h
    next mid hmid => exact ih (inPart_of_step hs hmid) h
    next => cases h

/-- Where no part is open, a tree of directives adds its node, if there is room for it. -/
theorem exists_run_of_balanced {t : SegmentTree} {w : Text} (ht : t.Balanced false)
    (hpart : s.inPart = false) (hline : s.line = w.endLine)
    (hroom : s.enclosing.length + t.depth ≤ more) :
    ∃ next, s.run more t.leaves = .ok next ∧ next.inPart = s.inPart ∧
      next.nodes = (t.placed w).node :: s.nodes ∧ next.enclosing = s.enclosing := by
  have hdepth : t.depth ≤ more - s.enclosing.length := by omega
  have hitems : Items false (more - s.enclosing.length) w (t.leaves ++ []) [t.placed w] :=
    t.items ht hdepth .nil
  rw [List.append_nil] at hitems
  have hfits : s.enclosing.length + (more - s.enclosing.length) = more := by omega
  obtain ⟨next, hrun, hsame, hnodes, henclosing, -⟩ := adds_of_items hitems s hline hpart hfits
  exact ⟨next, hrun, hsame, hnodes, henclosing⟩

/-- Behind trees with like nodes, reading is alike. -/
theorem exists_alike_of_balanced (hR : NodeCongruence R) {t u : SegmentTree}
    (ht : t.Balanced false) (hu : u.Balanced false)
    (hlike : ∀ w, R [(t.placed w).node] [(u.placed w).node])
    (hclosed : s.enclosing.any OpenBlock.isPart = false) (hpart : s.inPart = false) {w : Text}
    (hline : s.line = w.endLine) (hroom : s.enclosing.length + max t.depth u.depth ≤ more) :
    ∃ mid mid', s.run more t.leaves = .ok mid ∧ s.run more u.leaves = .ok mid' ∧
      Alike R mid mid' := by
  have htroom : s.enclosing.length + t.depth ≤ more := by omega
  have huroom : s.enclosing.length + u.depth ≤ more := by omega
  obtain ⟨mid, hmid, hmidPart, hnodes, hblocks⟩ := exists_run_of_balanced ht hpart hline htroom
  obtain ⟨mid', hmid', hmidPart', hnodes', hblocks'⟩ :=
    exists_run_of_balanced hu hpart hline huroom
  refine ⟨mid, mid', hmid, hmid', hmidPart'.trans hmidPart.symm, ?_, ?_, fun hopen => ?_⟩
  · rw [hnodes, hnodes']
    exact hR.cons (hR.refl _) (hlike w)
  · rw [hblocks, hblocks']
    exact List.forall₂_same.mpr fun b _ => .refl hR b
  · rw [hblocks] at hopen
    cases hclosed.symm.trans hopen

end NodeProgress

open NodeProgress

/-- A tree of directives outside parts may stand in place of another one with a like node. -/
theorem parseNodes_replaced (hR : NodeCongruence R) {limit : Nat} {ns ms : List Node}
    {before after : List Segment} {t u : SegmentTree} (ht : t.Balanced false)
    (hu : u.Balanced false) (hlike : ∀ w, R [(t.placed w).node] [(u.placed w).node])
    (hbefore : ClosesParts before)
    (hns : parseNodes limit false (before ++ (t.leaves ++ after)) = .ok ns)
    (hms : parseNodes limit false (before ++ (u.leaves ++ after)) = .ok ms) : R ns ms := by
  -- With a higher limit there is room for both trees, whatever is open around them.
  let more := limit + max t.depth u.depth
  have hlimit : limit ≤ more := Nat.le_add_right limit _
  obtain ⟨final, hrun, hfinish⟩ := parseNodes_eq_ok_iff_run.mp hns
  obtain ⟨front, hfront, hfinal⟩ := run_append_eq_ok_iff.mp hrun
  have hline : front.line = Text.endLine ([] ++ source before) := line_of_run_eq hfront rfl
  have hclosed := any_isPart_of_closesParts hbefore hfront
  have hpart := inPart_of_run (fun _ => rfl) hfront hclosed
  have hopen := length_enclosing_of_run (Nat.zero_le limit) hfront
  obtain ⟨mid, mid', hmid, hmid', halike⟩ := exists_alike_of_balanced hR ht hu hlike hclosed
    hpart hline (Nat.add_le_add_right hopen _)
  have hafter := run_of_le hlimit hfinal
  rw [run_append_of_run hmid] at hafter
  obtain ⟨final', hafter', halike'⟩ := halike.run hR hafter
  obtain ⟨ks, hks, hlike'⟩ := halike'.exists_finish hfinish
  have hwhole : parseNodes more false (before ++ (u.leaves ++ after)) = .ok ks := by
    refine parseNodes_eq_ok_iff_run.mpr ⟨final', ?_, hks⟩
    rw [run_append_of_run (run_of_le hlimit hfront), run_append_of_run hmid', hafter']
  cases hwhole.symm.trans ((keptUnless_parseNodes hlimit false _).eq_ok hms)
  exact hlike'

end Stencil
