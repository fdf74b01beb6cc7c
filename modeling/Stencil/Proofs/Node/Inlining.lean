/- Segments in place of a directive: they are read as they are on their own. -/
import Mathlib.Data.List.Induction
import Stencil.Proofs.Node.Limit
import Stencil.Proofs.Node.Moving
import Stencil.Proofs.Node.Simulation

namespace Stencil

/-- Behind these segments no part is open: each part among them is closed. -/
def ClosesParts (ss : List Segment) : Prop :=
  ∀ front d rear, ss = front ++ d :: rear → d.Names .part → ∃ z ∈ rear, z.Names .endPart

theorem closesParts_nil : ClosesParts [] := by
  rintro (_ | _) _ _ h <;> cases h

theorem closesParts_cons {s : Segment} {ss : List Segment} : ClosesParts (s :: ss) ↔
    (s.Names .part → ∃ z ∈ ss, z.Names .endPart) ∧ ClosesParts ss := by
  constructor
  · exact fun h => ⟨h [] s ss rfl, fun front d rear hss => h (s :: front) d rear (hss ▸ rfl)⟩
  · rintro ⟨hs, hss⟩ front d rear hsplit hd
    rcases List.cons_eq_append_iff.mp hsplit with ⟨rfl, hhead⟩ | ⟨front, rfl, rfl⟩
    · obtain ⟨rfl, rfl⟩ := List.cons.inj hhead
      exact hs hd
    · exact hss front d rear rfl hd

namespace NodeProgress

variable {limit more : Nat} {s u next : NodeProgress} {segment : Segment} {ss : List Segment}

/-- One part is open at most, and no segment that was read behind its directive closes it. -/
structure PartsRead (ss : List Segment) (s : NodeProgress) : Prop where
  single : s.enclosing.countP OpenBlock.isPart ≤ s.inPart.toNat
  opened : 0 < s.enclosing.countP OpenBlock.isPart → ∃ front d rear, ss = front ++ d :: rear ∧
    d.Names .part ∧ ∀ z ∈ rear, ¬ z.Names .endPart

theorem PartsRead.keep (h : PartsRead ss s) (hsegment : ¬ segment.Names .endPart)
    (hpart : next.inPart = s.inPart)
    (hcount : next.enclosing.countP OpenBlock.isPart = s.enclosing.countP OpenBlock.isPart) :
    PartsRead (ss ++ [segment]) next where
  single := by
    rw [hcount, hpart]
    exact h.single
  opened := by
    intro hopen
    rw [hcount] at hopen
    obtain ⟨front, d, rear, rfl, hd, hrear⟩ := h.opened hopen
    refine ⟨front, d, rear ++ [segment], ?_, hd, ?_⟩
    · rw [List.append_assoc, List.cons_append]
    · exact List.forall_mem_append.mpr ⟨hrear, List.forall_mem_singleton.mpr hsegment⟩

theorem PartsRead.takes (h : PartsRead ss s) (hs : Takes limit s segment next) :
    PartsRead (ss ++ [segment]) next := by
  cases hs with
  | text hs =>
    refine h.keep ?_ rfl rfl
    rintro ⟨_, _, _, _, _⟩
    cases hs
  | showPart hs => exact h.keep (fun hend => nomatch hs.names.unique hend) rfl rfl
  | showParent hs _ => exact h.keep (fun hend => nomatch Segment.Names.unique ⟨_, hs⟩ hend) rfl rfl
  | part hs hpart _ =>
    have hnone : s.enclosing.countP OpenBlock.isPart = 0 := by
      have hsingle := h.single
      rw [hpart] at hsingle
      exact Nat.le_zero.mp hsingle
    refine ⟨?_, fun _ => ⟨ss, segment, [], rfl, hs.names, nofun⟩⟩
    show List.countP OpenBlock.isPart (.part .. :: s.enclosing) ≤ 1
    rw [List.countP_cons, hnone]
    exact Nat.le_refl 1
  | ifThen hs _ => exact h.keep (fun hend => nomatch hs.names.unique hend) rfl (List.countP_cons ..)

theorem PartsRead.closes (h : PartsRead ss s) (hs : Closes s segment next) :
    PartsRead (ss ++ [segment]) next := by
  have hsingle := h.single
  cases hs with
  | endPart _ hopen =>
    rw [hopen, List.countP_cons_of_pos rfl] at hsingle
    have hnone := Nat.le_of_succ_le_succ (Nat.le_trans hsingle (Bool.toNat_le _))
    exact ⟨hnone, fun hpos => absurd hpos (Nat.not_lt_of_le hnone)⟩
  | elseIf hs hopen =>
    exact h.keep (fun hend => nomatch hs.names.unique hend) rfl (by rw [hopen]; rfl)
  | otherwise hs hopen =>
    exact h.keep (fun hend => nomatch hs.unique hend) rfl (by rw [hopen]; rfl)
  | endBranch hs hopen =>
    exact h.keep (fun hend => nomatch hs.unique hend) rfl (by rw [hopen]; rfl)
  | endOtherwise hs hopen =>
    exact h.keep (fun hend => nomatch hs.unique hend) rfl (by rw [hopen]; rfl)

theorem partsRead_of_run (h : (start false).run limit ss = .ok s) : PartsRead ss s := by
  induction ss using List.reverseRecOn generalizing s with
  | nil =>
    cases h
    exact ⟨Nat.le_refl 0, nofun⟩
  | append_singleton ss segment ih =>
    rw [run_append] at h
    split at h
    next mid hmid =>
      rw [run] at h
      split at h
      next hstep =>
        cases h
        rcases step_eq_ok_iff.mp hstep with htakes | hcloses
        · exact (ih hmid).takes htakes
        · exact (ih hmid).closes hcloses
      next => cases h
    next => cases h

/-- Outside parts no block of a part is open. -/
theorem any_isPart_of_closesParts (hss : ClosesParts ss)
    (h : (start false).run limit ss = .ok s) : s.enclosing.any OpenBlock.isPart = false := by
  refine Bool.eq_false_iff.mpr fun hopen => ?_
  have hpos : 0 < s.enclosing.countP OpenBlock.isPart :=
    List.countP_pos_iff.mpr (List.any_eq_true.mp hopen)
  obtain ⟨front, d, rear, hsplit, hd, hrear⟩ := (partsRead_of_run h).opened hpos
  obtain ⟨z, hz, hend⟩ := hss front d rear hsplit hd
  exact hrear z hz hend

theorem length_enclosing_of_step (hs : s.enclosing.length ≤ limit)
    (h : s.step limit segment = .ok next) : next.enclosing.length ≤ limit := by
  rcases step_eq_ok_iff.mp h with htakes | hcloses
  · cases htakes with
    | text _ => exact hs
    | showPart _ => exact hs
    | showParent _ _ => exact hs
    | part _ _ hroom => exact hroom
    | ifThen _ hroom => exact hroom
  · cases hcloses with
    | endPart _ hopen => rw [hopen] at hs; exact Nat.le_of_succ_le hs
    | elseIf _ hopen => rw [hopen] at hs; exact hs
    | otherwise _ hopen => rw [hopen] at hs; exact hs
    | endBranch _ hopen => rw [hopen] at hs; exact Nat.le_of_succ_le hs
    | endOtherwise _ hopen => rw [hopen] at hs; exact Nat.le_of_succ_le hs

/-- No more blocks are open than the limit allows. -/
theorem length_enclosing_of_run (hs : s.enclosing.length ≤ limit)
    (h : s.run limit ss = .ok next) : next.enclosing.length ≤ limit := by
  induction ss generalizing s with
  | nil =>
    cases h
    exact hs
  | cons segment ss ih =>
    rw [run] at h
    split at h
    next hstep => exact ih (length_enclosing_of_step hs hstep) h
    next => cases h

theorem run_of_le (hlimit : limit ≤ more) (h : s.run limit ss = .ok next) :
    s.run more ss = .ok next :=
  (keptUnless_run hlimit s ss).eq_ok h

/-- Segments that parse on their own, as the body of a part, add the same nodes anywhere. -/
theorem exists_run_of_parseNodes {inner : List Node} {before : Text}
    (h : parseNodes limit true ss = .ok inner) (hline : s.line = before.endLine)
    (hroom : s.enclosing.length + limit ≤ more) :
    ∃ next, s.run more ss = .ok next ∧ next.inPart = s.inPart ∧
      next.nodes = (nodesMoved before.newlines inner).reverse ++ s.nodes ∧
      next.enclosing = s.enclosing := by
  obtain ⟨ts, rfl, hbalanced, hdepth, rfl⟩ := parseNodes_eq_ok_iff_trees.mp h
  have hanywhere : AllBalanced s.inPart ts := by
    cases s.inPart with
    | true => exact hbalanced
    | false => exact ((allBalanced_true_iff ts).mp hbalanced).1
  have hitems : Items s.inPart (more - s.enclosing.length) before (leavesOf ts)
      (placedFrom before ts) := by
    exact items_of_trees ts hanywhere (by omega)
  have hfits : s.enclosing.length + (more - s.enclosing.length) = more := by omega
  obtain ⟨next, hrun, hpart, hnodes, henclosing, -⟩ := adds_of_items hitems s hline rfl hfits
  refine ⟨next, hrun, hpart, ?_, henclosing⟩
  rw [hnodes, ← nodes_placedFrom_behind, List.append_nil]

end NodeProgress

open NodeProgress

variable {R : List Node → List Node → Prop}

theorem OpenBlock.Alike.refl (hR : NodeCongruence R) (b : OpenBlock) : OpenBlock.Alike R b b := by
  have hbranch : ∀ c : Branch, Branch.Alike R c c := fun c => ⟨rfl, hR.refl _⟩
  cases b with
  | part => exact .part (hR.refl _)
  | branch => exact .branch (hR.refl _) (List.forall₂_same.mpr fun c _ => hbranch c)
  | otherwise =>
    exact .otherwise (hR.refl _) (List.forall₂_same.mpr fun c _ => hbranch c) (hbranch _)

/-- In place of a directive outside parts stand segments that parse on their own. If their nodes are
like the one of the directive, then so are those of the whole, given room for the nodes inside. -/
theorem exists_parseNodes_inlined (hR : NodeCongruence R) {limit : Nat} {nodes inner : List Node}
    {before after ss : List Segment} {s : Segment} {e : Expr}
    (h : parseNodes limit false (before ++ s :: after) = .ok nodes) (hs : s.Requires .showPart e)
    (hbefore : ClosesParts before) (hinner : parseNodes limit true ss = .ok inner)
    (hlike : ∀ line lines, R [.showPart e line] (nodesMoved lines inner)) :
    ∃ ms, parseNodes (limit + limit) false (joinTexts (before ++ (ss ++ after))) = .ok ms ∧
      R nodes ms := by
  have hlimit : limit ≤ limit + limit := Nat.le_add_left limit limit
  obtain ⟨final, hrun, hfinish⟩ := parseNodes_eq_ok_iff_run.mp h
  obtain ⟨front, hfront, hrun⟩ := run_append_eq_ok_iff.mp hrun
  rw [run_cons_of_step (Takes.showPart hs).step] at hrun
  have hline : front.line = Text.endLine ([] ++ source before) := line_of_run_eq hfront rfl
  have hopen := length_enclosing_of_run (Nat.zero_le limit) hfront
  obtain ⟨mid, hmid, hpart, hnodes, hblocks⟩ :=
    exists_run_of_parseNodes hinner hline (Nat.add_le_add_right hopen limit)
  have hsame : Alike R ((front.past s).add (.showPart e front.line)) mid := by
    refine ⟨hpart, ?_, ?_, fun hinside => ?_⟩
    · show R (Node.showPart e front.line :: front.nodes).reverse mid.nodes.reverse
      rw [hnodes, List.reverse_cons, List.reverse_append, List.reverse_reverse]
      exact hR.append (hR.refl _) (hlike _ _)
    · rw [hblocks]
      exact List.forall₂_same.mpr fun b _ => .refl hR b
    · cases (any_isPart_of_closesParts hbefore hfront).symm.trans hinside
  obtain ⟨last, hlast, halike⟩ := hsame.run hR (run_of_le hlimit hrun)
  obtain ⟨ms, hms, hnodes'⟩ := halike.exists_finish hfinish
  have hwhole : parseNodes (limit + limit) false (before ++ (ss ++ after)) = .ok ms := by
    refine parseNodes_eq_ok_iff_run.mpr ⟨last, ?_, hms⟩
    rw [run_append_of_run (run_of_le hlimit hfront), run_append_of_run hmid, hlast]
  obtain ⟨ks, hks, hnodes''⟩ := exists_parseNodes_joinTexts hR hwhole
  exact ⟨ks, hks, hR.trans hnodes' hnodes''⟩

end Stencil
