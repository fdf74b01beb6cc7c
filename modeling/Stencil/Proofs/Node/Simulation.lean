/- Reading the same segments keeps nodes alike. -/
import Mathlib.Data.List.Forall2
import Stencil.Proofs.Node.Balance
import Stencil.Proofs.Node.Parsing
import Stencil.Proofs.Segment.Joints

namespace Stencil

/-- A relation of nodes that takes no notice of lines, nor of a text that is cut in two, nor of what
a part has inside. -/
structure NodeCongruence (R : List Node → List Node → Prop) : Prop where
  refl : ∀ ns, R ns ns
  trans : ∀ {ns ms ks}, R ns ms → R ms ks → R ns ks
  append : ∀ {ns ms ns' ms'}, R ns ms → R ns' ms' → R (ns ++ ns') (ms ++ ms')
  text : ∀ t line line', R [.text t line] [.text t line']
  texts : ∀ t u line line' line'', R [.text t line, .text u line'] [.text (t ++ u) line'']
  part : ∀ name body children children' line line' bodyLine bodyLine',
    R [.part name body children line bodyLine] [.part name body children' line' bodyLine']
  showPart : ∀ name line line', R [.showPart name line] [.showPart name line']
  showParent : ∀ line line', R [.showParent line] [.showParent line']
  conditional : ∀ {yes yes' no no'} test line line', R yes yes' → R no no' →
    R [.conditional test yes no line] [.conditional test yes' no' line']

variable {R : List Node → List Node → Prop}

/-- Finished branches on the same condition. -/
structure Branch.Alike (R : List Node → List Node → Prop) (b c : Branch) : Prop where
  test : c.test = b.test
  nodes : R b.nodes c.nodes

/-- Blocks that the same directives opened. -/
inductive OpenBlock.Alike (R : List Node → List Node → Prop) : OpenBlock → OpenBlock → Prop
  | part {before before' name opened opened' bodyLine bodyLine'} :
      R before.reverse before'.reverse →
      Alike R (.part before name opened bodyLine) (.part before' name opened' bodyLine')
  | branch {before before' earlier earlier' test line line' opened opened'} :
      R before.reverse before'.reverse → List.Forall₂ (Branch.Alike R) earlier earlier' →
      Alike R (.branch before earlier test line opened)
        (.branch before' earlier' test line' opened')
  | otherwise {before before' earlier earlier' last last' opened opened'} :
      R before.reverse before'.reverse → List.Forall₂ (Branch.Alike R) earlier earlier' →
      Branch.Alike R last last' →
      Alike R (.otherwise before earlier last opened) (.otherwise before' earlier' last' opened')

def OpenBlock.isPart : OpenBlock → Bool
  | .part .. => true
  | _ => false

/-- Nodes are kept in reverse while they are read. -/
theorem NodeCongruence.cons (hR : NodeCongruence R) {ns ms : List Node} {n m : Node}
    (hahead : R ns.reverse ms.reverse) (hn : R [n] [m]) :
    R (n :: ns).reverse (m :: ms).reverse := by
  rw [List.reverse_cons, List.reverse_cons]
  exact hR.append hahead hn

theorem NodeCongruence.chain (hR : NodeCongruence R) {last last' : Node}
    {earlier earlier' : List Branch} (hlast : R [last] [last'])
    (h : List.Forall₂ (Branch.Alike R) earlier earlier') :
    R [Branch.chain last earlier] [Branch.chain last' earlier'] := by
  induction h generalizing last last' with
  | nil => exact hlast
  | @cons b b' _ _ hb _ ih =>
    apply ih
    show R [b.node [last]] [b'.node [last']]
    rw [Branch.node, Branch.node, hb.test]
    exact hR.conditional _ _ _ hb.nodes hlast

namespace NodeProgress

/-- The same blocks are open, with nodes alike. The source of the body counts while a part is
open. -/
structure Alike (R : List Node → List Node → Prop) (s u : NodeProgress) : Prop where
  inPart : u.inPart = s.inPart
  nodes : R s.nodes.reverse u.nodes.reverse
  enclosing : List.Forall₂ (OpenBlock.Alike R) s.enclosing u.enclosing
  body : s.enclosing.any OpenBlock.isPart = true → source u.body.reverse = source s.body.reverse

variable {limit : Nat} {s u next : NodeProgress} {segment : Segment} {ss : List Segment}

theorem source_reverse_cons (segment : Segment) (body : List Segment) :
    source (segment :: body).reverse = source body.reverse ++ segment.raw := by
  rw [List.reverse_cons, source_append, source_singleton]

theorem Alike.start (hR : NodeCongruence R) (inPart : Bool) :
    Alike R (.start inPart) (.start inPart) :=
  ⟨rfl, hR.refl _, .nil, fun _ => rfl⟩

theorem Alike.body_cons (h : Alike R s u) (segment : Segment)
    (hpart : s.enclosing.any OpenBlock.isPart = true) :
    source (segment :: u.body).reverse = source (segment :: s.body).reverse := by
  rw [source_reverse_cons, source_reverse_cons, h.body hpart]

/-- Both sides read a segment that adds a node. -/
theorem Alike.add (hR : NodeCongruence R) (h : Alike R s u) {n n' : Node} (hn : R [n] [n'])
    (segment : Segment) : Alike R ((s.past segment).add n) ((u.past segment).add n') where
  inPart := h.inPart
  nodes := hR.cons h.nodes hn
  enclosing := h.enclosing
  body := h.body_cons segment

theorem Alike.takes (hR : NodeCongruence R) (h : Alike R s u) (hs : Takes limit s segment next) :
    ∃ next', Takes limit u segment next' ∧ Alike R next next' := by
  have hlength := h.enclosing.length_eq
  cases hs with
  | text hs => exact ⟨_, .text hs, h.add hR (hR.text _ _ _) segment⟩
  | showPart hs => exact ⟨_, .showPart hs, h.add hR (hR.showPart _ _ _) segment⟩
  | showParent hs hx => exact ⟨_, .showParent hs hx, h.add hR (hR.showParent _ _) segment⟩
  | part hs hpart hroom =>
    refine ⟨_, .part hs (h.inPart.trans hpart) (hlength ▸ hroom), ?_⟩
    exact ⟨rfl, hR.refl _, .cons (.part h.nodes) h.enclosing, fun _ => rfl⟩
  | ifThen hs hroom =>
    refine ⟨_, .ifThen hs (hlength ▸ hroom), ?_⟩
    exact ⟨h.inPart, hR.refl _, .cons (.branch h.nodes .nil) h.enclosing, h.body_cons segment⟩

theorem Alike.closes (hR : NodeCongruence R) (h : Alike R s u) (hs : Closes s segment next) :
    ∃ next', Closes u segment next' ∧ Alike R next next' := by
  have hblocks := h.enclosing
  cases hs with
  | endPart hs hopen =>
    have hpart : s.enclosing.any OpenBlock.isPart = true := by rw [hopen]; rfl
    rw [hopen] at hblocks
    obtain ⟨_, rest', hblock, hrest, hopen'⟩ := List.forall₂_cons_left_iff.mp hblocks
    cases hblock with
    | part hahead =>
      have hbody := h.body_cons segment hpart
      refine ⟨_, .endPart hs hopen', rfl, hR.cons hahead ?_, hrest, fun _ => hbody⟩
      rw [h.body hpart]
      exact hR.part _ _ _ _ _ _ _ _
  | elseIf hs hopen =>
    have hbody := h.body_cons segment
    rw [hopen] at hblocks hbody
    obtain ⟨_, rest', hblock, hrest, hopen'⟩ := List.forall₂_cons_left_iff.mp hblocks
    cases hblock with
    | branch hahead hearlier =>
      refine ⟨_, .elseIf hs hopen', h.inPart, hR.refl _, .cons (.branch hahead ?_) hrest, hbody⟩
      exact .cons ⟨rfl, h.nodes⟩ hearlier
  | otherwise hs hopen =>
    have hbody := h.body_cons segment
    rw [hopen] at hblocks hbody
    obtain ⟨_, rest', hblock, hrest, hopen'⟩ := List.forall₂_cons_left_iff.mp hblocks
    cases hblock with
    | branch hahead hearlier =>
      refine ⟨_, .otherwise hs hopen', h.inPart, hR.refl _, .cons (.otherwise hahead hearlier ?_)
        hrest, hbody⟩
      exact ⟨rfl, h.nodes⟩
  | endBranch hs hopen =>
    have hbody := h.body_cons segment
    rw [hopen] at hblocks hbody
    obtain ⟨_, rest', hblock, hrest, hopen'⟩ := List.forall₂_cons_left_iff.mp hblocks
    cases hblock with
    | branch hahead hearlier =>
      refine ⟨_, .endBranch hs hopen', h.inPart, hR.cons hahead ?_, hrest, hbody⟩
      exact hR.chain (hR.conditional _ _ _ h.nodes (hR.refl _)) hearlier
  | endOtherwise hs hopen =>
    have hbody := h.body_cons segment
    rw [hopen] at hblocks hbody
    obtain ⟨_, rest', hblock, hrest, hopen'⟩ := List.forall₂_cons_left_iff.mp hblocks
    cases hblock with
    | otherwise hahead hearlier hlast =>
      refine ⟨_, .endOtherwise hs hopen', h.inPart, hR.cons hahead ?_, hrest, hbody⟩
      refine hR.chain ?_ hearlier
      rw [Branch.node, Branch.node, hlast.test]
      exact hR.conditional _ _ _ hlast.nodes h.nodes

/-- A step from alike states leads to alike states. -/
theorem Alike.step (hR : NodeCongruence R) (h : Alike R s u)
    (hs : s.step limit segment = .ok next) :
    ∃ next', u.step limit segment = .ok next' ∧ Alike R next next' := by
  rcases step_eq_ok_iff.mp hs with htakes | hcloses
  · obtain ⟨next', hnext, halike⟩ := h.takes hR htakes
    exact ⟨next', hnext.step, halike⟩
  · obtain ⟨next', hnext, halike⟩ := h.closes hR hcloses
    exact ⟨next', hnext.step limit, halike⟩

/-- So does a run. -/
theorem Alike.run (hR : NodeCongruence R) (h : Alike R s u) (hs : s.run limit ss = .ok next) :
    ∃ next', u.run limit ss = .ok next' ∧ Alike R next next' := by
  induction ss generalizing s u with
  | nil =>
    cases hs
    exact ⟨u, rfl, h⟩
  | cons segment ss ih =>
    rw [NodeProgress.run] at hs
    split at hs
    next mid hmid =>
      obtain ⟨mid', hmid', halike⟩ := h.step hR hmid
      rw [run_cons_of_step hmid']
      exact ih halike hs
    next => cases hs

/-- The state behind a text. -/
def behindText (s : NodeProgress) (t : Text) : NodeProgress :=
  (s.past (.text t)).add (.text t s.line)

theorem run_text (s : NodeProgress) (t : Text) (ss : List Segment) :
    s.run limit (.text t :: ss) = (s.behindText t).run limit ss :=
  run_cons_of_step (Takes.text rfl).step ss

theorem Alike.behindText (hR : NodeCongruence R) (h : Alike R s u) (t : Text) :
    Alike R (s.behindText t) (u.behindText t) :=
  h.add hR (hR.text _ _ _) (.text t)

/-- A text that comes next may as well be the end of the one that was read. -/
theorem Alike.join (hR : NodeCongruence R) {t : Text} (h : Alike R s (u.behindText t)) (v : Text) :
    Alike R (s.behindText v) (u.behindText (t ++ v)) where
  inPart := h.inPart
  nodes := by
    have happend := hR.append h.nodes (hR.text v s.line u.line)
    have hu : (u.behindText t).nodes.reverse = u.nodes.reverse ++ [.text t u.line] :=
      List.reverse_cons
    rw [hu, List.append_assoc] at happend
    have hjoin := hR.append (hR.refl u.nodes.reverse) (hR.texts t v u.line u.line u.line)
    show R (Node.text v s.line :: s.nodes).reverse (Node.text (t ++ v) u.line :: u.nodes).reverse
    rw [List.reverse_cons, List.reverse_cons]
    exact hR.trans happend hjoin
  enclosing := h.enclosing
  body := by
    intro hpart
    have hbody : source (.text t :: u.body).reverse = source s.body.reverse := h.body hpart
    show source (.text (t ++ v) :: u.body).reverse = source (.text v :: s.body).reverse
    rw [source_reverse_cons, source_reverse_cons, ← hbody, source_reverse_cons, List.append_assoc]
    rfl

-- Texts are joined from the right, so a text that is read ahead on one side only is kept apart.
theorem Alike.run_prependText (hR : NodeCongruence R) (hs : s.run limit ss = .ok next) :
    (Alike R s u → ∃ next', u.run limit (joinTexts ss) = .ok next' ∧ Alike R next next') ∧
      ∀ t, Alike R s (u.behindText t) →
        ∃ next', u.run limit (prependText t (joinTexts ss)) = .ok next' ∧ Alike R next next' := by
  induction ss using joinTexts.induct generalizing s u with
  | case1 =>
    cases hs
    refine ⟨fun h => ⟨u, rfl, h⟩, fun t h => ⟨u.behindText t, ?_, h⟩⟩
    exact run_text u t []
  | case2 v ss ih =>
    rw [run_text] at hs
    rw [joinTexts]
    refine ⟨fun h => (ih hs).2 v (h.behindText hR v), fun t h => ?_⟩
    rw [prependText_prependText]
    exact (ih hs).2 (t ++ v) (h.join hR v)
  | case3 segment ss hsegment ih =>
    have hfirst : ∀ {u}, Alike R s u → ∃ next', u.run limit (segment :: joinTexts ss) = .ok next' ∧
        Alike R next next' := by
      intro u h
      rw [NodeProgress.run] at hs
      split at hs
      next mid hmid =>
        obtain ⟨mid', hmid', halike⟩ := h.step hR hmid
        rw [run_cons_of_step hmid']
        exact (ih hs).1 halike
      next => cases hs
    rw [joinTexts_of_ne_text hsegment]
    refine ⟨hfirst, fun t h => ?_⟩
    rw [prependText_of_ne_text hsegment, run_text]
    exact hfirst h

/-- Texts may be joined. -/
theorem Alike.run_joinTexts (hR : NodeCongruence R) (h : Alike R s u)
    (hs : s.run limit ss = .ok next) :
    ∃ next', u.run limit (joinTexts ss) = .ok next' ∧ Alike R next next' :=
  (Alike.run_prependText hR hs).1 h

theorem Alike.exists_finish (h : Alike R s u) {ns : List Node} (hs : s.finish = .ok ns) :
    ∃ ms, u.finish = .ok ms ∧ R ns ms := by
  obtain ⟨hclosed, rfl⟩ := finish_eq_ok_iff.mp hs
  have hblocks := h.enclosing
  rw [hclosed, List.forall₂_nil_left_iff] at hblocks
  exact ⟨_, finish_eq_ok_iff.mpr ⟨hblocks, rfl⟩, h.nodes⟩

end NodeProgress

/-- It does not matter to the nodes how text is divided. -/
theorem exists_parseNodes_joinTexts (hR : NodeCongruence R) {limit : Nat} {inPart : Bool}
    {ss : List Segment} {ns : List Node} (h : parseNodes limit inPart ss = .ok ns) :
    ∃ ms, parseNodes limit inPart (joinTexts ss) = .ok ms ∧ R ns ms := by
  obtain ⟨final, hfinal, hfinish⟩ := parseNodes_eq_ok_iff_run.mp h
  obtain ⟨last, hlast, halike⟩ := (NodeProgress.Alike.start hR inPart).run_joinTexts hR hfinal
  obtain ⟨ms, hms, hlike⟩ := halike.exists_finish hfinish
  exact ⟨ms, parseNodes_eq_ok_iff_run.mpr ⟨last, hlast, hms⟩, hlike⟩

end Stencil
