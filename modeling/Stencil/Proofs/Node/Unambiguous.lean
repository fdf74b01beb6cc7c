/- Segments can be read as balanced trees in one way only. -/
import Stencil.Proofs.Node.Definitions

namespace Stencil

/-- The name of the first directive of a tree, if it starts with one. -/
def SegmentTree.keyword? : SegmentTree → Option Keyword
  | .text _ => none
  | .showPart _ _ => some .showPart
  | .showParent _ => some .parent
  | .part _ _ _ _ => some .part
  | .conditional _ _ _ _ => some .ifThen

def BranchTree.keyword : BranchTree → Keyword
  | .close _ => .endIf
  | .otherwise _ _ _ => .otherwise
  | .elseIf _ _ _ _ => .elseIf

/-- The keywords that no tree starts with. -/
def Keyword.closing : List Keyword := [.endPart, .elseIf, .otherwise, .endIf]

/-- The segments are over, or go on with what ends a block or a branch. -/
def Stops (ss : List Segment) : Prop :=
  ∀ s rest, ss = s :: rest → ∃ k ∈ Keyword.closing, s.keyword? = some k

variable {inPart inPart' : Bool} {xs ys : List Segment}

theorem Segment.Requires.unique {s : Segment} {k l : Keyword} {d e : Expr} (hd : s.Requires k d)
    (he : s.Requires l e) : d = e :=
  Option.some.inj ((argument?_of_requires hd).symm.trans (argument?_of_requires he))

theorem SegmentTree.exists_leaves {t : SegmentTree} (h : t.Balanced inPart) :
    ∃ s rest, t.leaves = s :: rest ∧ s.keyword? = t.keyword? := by
  cases t with
  | text s => exact ⟨s, [], rfl, Segment.keyword?_of_isDirective h⟩
  | showPart s name => exact ⟨s, [], rfl, Segment.keyword?_of_names h.names⟩
  | showParent s => exact ⟨s, [], rfl, h.elim (Segment.keyword?_of_names ⟨_, ·⟩)
      (Segment.keyword?_of_names ⟨_, ·⟩)⟩
  | part opening name inner closing =>
    exact ⟨opening, _, rfl, Segment.keyword?_of_names h.2.1.names⟩
  | conditional opening test yes rest =>
    exact ⟨opening, _, rfl, Segment.keyword?_of_names h.1.names⟩

theorem BranchTree.exists_leaves {t : BranchTree} (h : t.Balanced inPart) :
    ∃ s rest, t.leaves = s :: rest ∧ s.keyword? = some t.keyword := by
  cases t with
  | close closing => exact ⟨closing, [], rfl, Segment.keyword?_of_names h⟩
  | otherwise turn no closing => exact ⟨turn, _, rfl, Segment.keyword?_of_names h.1⟩
  | elseIf turn test yes rest => exact ⟨turn, _, rfl, Segment.keyword?_of_names h.1.names⟩

theorem BranchTree.stops {t : BranchTree} (h : t.Balanced inPart) (xs : List Segment) :
    Stops (t.leaves ++ xs) := by
  obtain ⟨s, rest, hleaves, hk⟩ := exists_leaves h
  intro s' rest' heq
  rw [hleaves] at heq
  cases heq
  exact ⟨t.keyword, by cases t <;> simp [keyword, Keyword.closing], hk⟩

theorem stops_of_names {s : Segment} {k : Keyword} (h : s.Names k) (hk : k ∈ Keyword.closing)
    (xs : List Segment) : Stops (s :: xs) := by
  intro s' rest' heq
  cases heq
  exact ⟨k, hk, Segment.keyword?_of_names h⟩

/-- No tree starts where the segments stop. -/
theorem SegmentTree.not_stops {t : SegmentTree} (h : t.Balanced inPart) (xs : List Segment) :
    ¬ Stops (t.leaves ++ xs) := by
  intro hstops
  obtain ⟨s, rest, hleaves, hs⟩ := exists_leaves h
  obtain ⟨k, hk, hsome⟩ := hstops s (rest ++ xs) (by rw [hleaves]; rfl)
  have hclosing : t.keyword? = some k := hs.symm.trans hsome
  cases t <;> (cases hclosing <;> exact absurd hk (by decide))

theorem SegmentTree.keyword?_congr {t u : SegmentTree} (ht : t.Balanced inPart)
    (hu : u.Balanced inPart') (h : t.leaves ++ xs = u.leaves ++ ys) : t.keyword? = u.keyword? := by
  obtain ⟨s, rest, hs, hk⟩ := exists_leaves ht
  obtain ⟨s', rest', hs', hk'⟩ := exists_leaves hu
  rw [hs, hs'] at h
  rw [← hk, ← hk', (List.cons.inj h).1]

theorem BranchTree.keyword_congr {t u : BranchTree} (ht : t.Balanced inPart)
    (hu : u.Balanced inPart') (h : t.leaves ++ xs = u.leaves ++ ys) : t.keyword = u.keyword := by
  obtain ⟨s, rest, hs, hk⟩ := exists_leaves ht
  obtain ⟨s', rest', hs', hk'⟩ := exists_leaves hu
  rw [hs, hs'] at h
  exact Option.some.inj (hk.symm.trans ((List.cons.inj h).1 ▸ hk'))

/-- A block as its first segment, what it encloses and what ends it. -/
theorem block_inj {s s' : Segment} {as bs as' bs' : List Segment}
    (h : s :: (as ++ bs) ++ xs = s' :: (as' ++ bs') ++ ys) :
    s = s' ∧ as ++ (bs ++ xs) = as' ++ (bs' ++ ys) := by
  rw [List.cons_append, List.cons_append, List.append_assoc, List.append_assoc] at h
  exact List.cons.inj h

mutual

theorem SegmentTree.leaves_inj (t : SegmentTree) {inPart inPart' : Bool} {u : SegmentTree}
    {xs ys : List Segment} (ht : t.Balanced inPart) (hu : u.Balanced inPart')
    (h : t.leaves ++ xs = u.leaves ++ ys) : t = u ∧ xs = ys := by
  have hkeyword := SegmentTree.keyword?_congr ht hu h
  cases t with
  | text s =>
    cases u with
    | text s' =>
      obtain ⟨rfl, rfl⟩ := List.cons.inj h
      exact ⟨rfl, rfl⟩
    | _ => cases hkeyword
  | showPart s name =>
    cases u with
    | showPart s' name' =>
      obtain ⟨rfl, rfl⟩ := List.cons.inj h
      rw [Segment.Requires.unique ht hu]
      exact ⟨rfl, rfl⟩
    | _ => cases hkeyword
  | showParent s =>
    cases u with
    | showParent s' =>
      obtain ⟨rfl, rfl⟩ := List.cons.inj h
      exact ⟨rfl, rfl⟩
    | _ => cases hkeyword
  | part opening name inner closing =>
    cases u with
    | part opening' name' inner' closing' =>
      obtain ⟨-, hopening, hinner, hclosing⟩ := ht
      obtain ⟨-, hopening', hinner', hclosing'⟩ := hu
      obtain ⟨rfl, hrest⟩ := block_inj h
      obtain ⟨rfl, hlast⟩ := leavesOf_inj inner hinner hinner'
        (stops_of_names hclosing (by decide) xs) (stops_of_names hclosing' (by decide) ys) hrest
      obtain ⟨rfl, rfl⟩ := List.cons.inj hlast
      rw [hopening.unique hopening']
      exact ⟨rfl, rfl⟩
    | _ => cases hkeyword
  | conditional opening test yes rest =>
    cases u with
    | conditional opening' test' yes' rest' =>
      obtain ⟨hopening, hyes, hchain⟩ := ht
      obtain ⟨hopening', hyes', hchain'⟩ := hu
      obtain ⟨rfl, hrest⟩ := block_inj h
      obtain ⟨rfl, hbranches⟩ := leavesOf_inj yes hyes hyes' (BranchTree.stops hchain xs)
        (BranchTree.stops hchain' ys) hrest
      obtain ⟨rfl, rfl⟩ := rest.leaves_inj hchain hchain' hbranches
      rw [hopening.unique hopening']
      exact ⟨rfl, rfl⟩
    | _ => cases hkeyword

theorem BranchTree.leaves_inj (t : BranchTree) {inPart inPart' : Bool} {u : BranchTree}
    {xs ys : List Segment} (ht : t.Balanced inPart) (hu : u.Balanced inPart')
    (h : t.leaves ++ xs = u.leaves ++ ys) : t = u ∧ xs = ys := by
  have hkeyword := BranchTree.keyword_congr ht hu h
  cases t with
  | close closing =>
    cases u with
    | close closing' =>
      obtain ⟨rfl, rfl⟩ := List.cons.inj h
      exact ⟨rfl, rfl⟩
    | _ => cases hkeyword
  | otherwise turn no closing =>
    cases u with
    | otherwise turn' no' closing' =>
      obtain ⟨-, hno, hclosing⟩ := ht
      obtain ⟨-, hno', hclosing'⟩ := hu
      obtain ⟨rfl, hrest⟩ := block_inj h
      obtain ⟨rfl, hlast⟩ := leavesOf_inj no hno hno'
        (stops_of_names hclosing (by decide) xs) (stops_of_names hclosing' (by decide) ys) hrest
      obtain ⟨rfl, rfl⟩ := List.cons.inj hlast
      exact ⟨rfl, rfl⟩
    | _ => cases hkeyword
  | elseIf turn test yes rest =>
    cases u with
    | elseIf turn' test' yes' rest' =>
      obtain ⟨hturn, hyes, hchain⟩ := ht
      obtain ⟨hturn', hyes', hchain'⟩ := hu
      obtain ⟨rfl, hrest⟩ := block_inj h
      obtain ⟨rfl, hbranches⟩ := leavesOf_inj yes hyes hyes' (BranchTree.stops hchain xs)
        (BranchTree.stops hchain' ys) hrest
      obtain ⟨rfl, rfl⟩ := rest.leaves_inj hchain hchain' hbranches
      rw [hturn.unique hturn']
      exact ⟨rfl, rfl⟩
    | _ => cases hkeyword

theorem leavesOf_inj (ts : List SegmentTree) {inPart inPart' : Bool} {us : List SegmentTree}
    {xs ys : List Segment} (hts : AllBalanced inPart ts) (hus : AllBalanced inPart' us)
    (hxs : Stops xs) (hys : Stops ys) (h : leavesOf ts ++ xs = leavesOf us ++ ys) :
    ts = us ∧ xs = ys := by
  cases ts with
  | nil =>
    cases us with
    | nil => exact ⟨rfl, h⟩
    | cons u us =>
      have hxs' : xs = u.leaves ++ (leavesOf us ++ ys) := h.trans (List.append_assoc ..)
      exact absurd (hxs' ▸ hxs) (SegmentTree.not_stops hus.1 _)
  | cons t ts =>
    cases us with
    | nil =>
      have hys' : t.leaves ++ (leavesOf ts ++ xs) = ys := (List.append_assoc ..).symm.trans h
      exact absurd (hys' ▸ hys) (SegmentTree.not_stops hts.1 _)
    | cons u us =>
      rw [leavesOf, leavesOf, List.append_assoc, List.append_assoc] at h
      obtain ⟨rfl, hrest⟩ := t.leaves_inj hts.1 hus.1 h
      obtain ⟨rfl, rfl⟩ := leavesOf_inj ts hts.2 hus.2 hxs hys hrest
      exact ⟨rfl, rfl⟩

end

theorem stops_nil : Stops [] := nofun

/-- Balanced trees of the same segments are the same. -/
theorem eq_of_leavesOf_eq {ts us : List SegmentTree} (hts : AllBalanced inPart ts)
    (hus : AllBalanced inPart' us) (h : leavesOf ts = leavesOf us) : ts = us :=
  (leavesOf_inj ts hts hus stops_nil stops_nil (by rw [h])).1

/-- What the parser accepts and makes of trees, by their depth. -/
theorem parseNodes_leavesOf_eq_ok_iff {limit : Nat} {ts : List SegmentTree} {ns : List Node}
    (hts : AllBalanced inPart ts) : parseNodes limit inPart (leavesOf ts) = .ok ns ↔
      depthOf ts ≤ limit ∧ PlacedNode.nodes (placedFrom [] ts) = ns := by
  rw [parseNodes_eq_ok_iff_trees]
  constructor
  · rintro ⟨us, hleaves, hus, hdepth, hnodes⟩
    cases eq_of_leavesOf_eq hus hts hleaves
    exact ⟨hdepth, hnodes⟩
  · rintro ⟨hdepth, hnodes⟩
    exact ⟨ts, rfl, hts, hdepth, hnodes⟩

end Stencil
