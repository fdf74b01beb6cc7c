/- Segments behind others are parsed as they are alone, and so are those in front. -/
import Stencil.Proofs.Node.Replacement

namespace Stencil

section Trees

theorem leavesOf_append (ts us : List SegmentTree) :
    leavesOf (ts ++ us) = leavesOf ts ++ leavesOf us := by
  induction ts with
  | nil => rfl
  | cons t ts ih => rw [List.cons_append, leavesOf, leavesOf, ih, List.append_assoc]

theorem allBalanced_append {inPart : Bool} {ts us : List SegmentTree} (ht : AllBalanced inPart ts)
    (hu : AllBalanced inPart us) : AllBalanced inPart (ts ++ us) := by
  induction ts with
  | nil => exact hu
  | cons t ts ih => exact ⟨ht.1, ih ht.2⟩

theorem depthOf_append (ts us : List SegmentTree) :
    depthOf (ts ++ us) = max (depthOf ts) (depthOf us) := by
  induction ts with
  | nil => exact (Nat.zero_max _).symm
  | cons t ts ih => rw [List.cons_append, depthOf, depthOf, ih, Nat.max_assoc]

theorem placedFrom_append (before : Text) (ts us : List SegmentTree) :
    placedFrom before (ts ++ us) =
      placedFrom before ts ++ placedFrom (before ++ source (leavesOf ts)) us := by
  induction ts generalizing before with
  | nil => rw [leavesOf, source_nil, List.append_nil]; rfl
  | cons t ts ih =>
    rw [List.cons_append, placedFrom, placedFrom, ih, leavesOf, source_append, List.append_assoc,
      List.cons_append]

end Trees

variable {limit more : Nat} {inPart : Bool} {ss ts : List Segment} {ns ms ks : List Node}

theorem parseNodes_append (hss : parseNodes limit inPart ss = .ok ns)
    (hts : parseNodes limit inPart ts = .ok ms) :
    parseNodes limit inPart (ss ++ ts) = .ok (ns ++ nodesMoved (source ss).newlines ms) := by
  obtain ⟨front, rfl, hfront, hfrontDepth, rfl⟩ := parseNodes_eq_ok_iff_trees.mp hss
  obtain ⟨rear, rfl, hrear, hrearDepth, rfl⟩ := parseNodes_eq_ok_iff_trees.mp hts
  refine parseNodes_eq_ok_iff_trees.mpr ⟨front ++ rear, leavesOf_append front rear,
    allBalanced_append hfront hrear, ?_, ?_⟩
  · rw [depthOf_append]
    exact Nat.max_le.mpr ⟨hfrontDepth, hrearDepth⟩
  · have hmoved : PlacedNode.nodes (placedFrom (source (leavesOf front) ++ []) rear) =
        nodesMoved (source (leavesOf front)).newlines (PlacedNode.nodes (placedFrom [] rear)) :=
      nodes_placedFrom_behind [] rear
    rw [List.append_nil] at hmoved
    rw [placedFrom_append, PlacedNode.nodes_append, List.nil_append, hmoved]

open NodeProgress

theorem nodeCongruence_trivial : NodeCongruence fun _ _ => True := by
  constructor <;> intros <;> trivial

/-- What can be parsed behind nodes can be parsed on its own. -/
theorem exists_parseNodes_behind (hss : parseNodes limit inPart ss = .ok ns)
    (h : parseNodes limit inPart (ss ++ ts) = .ok ks) :
    ∃ ms, parseNodes limit inPart ts = .ok ms := by
  obtain ⟨ps, hitems, -⟩ := parseNodes_eq_ok_iff.mp hss
  obtain ⟨front, hfront, hpart, -, hclosed, -⟩ :=
    adds_of_items hitems (start inPart) rfl rfl (Nat.zero_add limit)
  obtain ⟨final, hfinal, hfinish⟩ := parseNodes_eq_ok_iff_run.mp h
  rw [run_append_of_run hfront] at hfinal
  have hblocks : front.enclosing = [] := hclosed
  have halike : Alike (fun _ _ => True) front (start inPart) := by
    refine ⟨hpart.symm, trivial, ?_, fun hopen => ?_⟩
    · rw [hblocks]
      exact .nil
    · rw [hblocks] at hopen
      cases hopen
  obtain ⟨last, hlast, halike'⟩ := halike.run nodeCongruence_trivial hfinal
  obtain ⟨ms, hms, -⟩ := halike'.exists_finish hfinish
  exact ⟨ms, parseNodes_eq_ok_iff_run.mpr ⟨last, hlast, hms⟩⟩

/-- Nodes that stand first need no higher limit than the whole. -/
theorem parseNodes_front (hss : parseNodes more inPart ss = .ok ns)
    (h : parseNodes limit inPart (ss ++ ts) = .ok ks) : parseNodes limit inPart ss = .ok ns := by
  obtain ⟨final, hrun, -⟩ := parseNodes_eq_ok_iff_run.mp h
  obtain ⟨front, hfront, -⟩ := run_append_eq_ok_iff.mp hrun
  obtain ⟨last, hlast, hfinish⟩ := parseNodes_eq_ok_iff_run.mp hss
  have hlower := run_of_le (Nat.le_max_left limit more) hfront
  have hhigher := run_of_le (Nat.le_max_right limit more) hlast
  cases hlower.symm.trans hhigher
  exact parseNodes_eq_ok_iff_run.mpr ⟨front, hfront, hfinish⟩

end Stencil
