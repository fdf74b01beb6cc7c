/- Segments parse into nodes exactly if they are laid out as those nodes. -/
import Stencil.Proofs.Node.Steps

namespace Stencil

namespace NodeProgress

variable {limit : Nat} {s mid next : NodeProgress} {segment : Segment} {ss ts : List Segment}

/-- The segments can be read, and leave the block `enclosing` with these nodes, latest first. -/
def Leads (limit : Nat) (s : NodeProgress) (ss : List Segment) (nodes : List Node)
    (enclosing : List OpenBlock) : Prop :=
  ∃ next, s.run limit ss = .ok next ∧ next.inPart = s.inPart ∧ next.nodes = nodes ∧
    next.enclosing = enclosing ∧ (s.inPart = true → next.body = ss.reverse ++ s.body)

theorem run_append_of_run (h : s.run limit ss = .ok mid) (ts : List Segment) :
    s.run limit (ss ++ ts) = mid.run limit ts := by
  rw [run_append, h]

theorem run_append_eq_ok_iff :
    s.run limit (ss ++ ts) = .ok next ↔
      ∃ mid, s.run limit ss = .ok mid ∧ mid.run limit ts = .ok next := by
  rw [run_append]
  cases s.run limit ss with
  | error f => simp
  | ok mid => simp

theorem run_cons_of_step (h : s.step limit segment = .ok mid) (ss : List Segment) :
    s.run limit (segment :: ss) = mid.run limit ss := by
  rw [run, h]

theorem run_singleton_of_step (h : s.step limit segment = .ok mid) :
    s.run limit [segment] = .ok mid := by
  rw [run_cons_of_step h, run]

theorem line_of_run_eq (h : s.run limit ss = .ok mid) {before : Text}
    (hline : s.line = before.endLine) : mid.line = (before ++ source ss).endLine := by
  rw [line_of_run h, hline, Text.endLine_append]

theorem line_of_step_eq (h : s.step limit segment = .ok mid) {before : Text}
    (hline : s.line = before.endLine) : mid.line = (before ++ segment.raw).endLine := by
  rw [line_of_step h, hline, Text.endLine_append]

variable {nodes : List Node} {enclosing : List OpenBlock}

theorem leads_nil : s.Leads limit [] s.nodes s.enclosing :=
  ⟨s, rfl, rfl, rfl, rfl, fun _ => rfl⟩

theorem leads_append (hrun : s.run limit ss = .ok mid) (hpart : mid.inPart = s.inPart)
    (hbody : s.inPart = true → mid.body = ss.reverse ++ s.body)
    (h : mid.Leads limit ts nodes enclosing) : s.Leads limit (ss ++ ts) nodes enclosing := by
  obtain ⟨next, hnext, hnextPart, hnodes, henclosing, hread⟩ := h
  refine ⟨next, ?_, hnextPart.trans hpart, hnodes, henclosing, fun hin => ?_⟩
  · rw [run_append_of_run hrun, hnext]
  · rw [hread (hpart.trans hin), hbody hin, List.reverse_append, List.append_assoc]

theorem leads_cons (hstep : s.step limit segment = .ok mid) (hpart : mid.inPart = s.inPart)
    (hbody : s.inPart = true → mid.body = segment :: s.body)
    (h : mid.Leads limit ss nodes enclosing) :
    s.Leads limit (segment :: ss) nodes enclosing :=
  leads_append (run_singleton_of_step hstep) hpart hbody h

/-- Wherever they fit, the segments add these nodes to the block at hand. -/
def Adds (limit : Nat) (inPart : Bool) (room : Nat) (before : Text) (ss : List Segment)
    (ps : List PlacedNode) : Prop :=
  ∀ s : NodeProgress, s.line = before.endLine → s.inPart = inPart →
    s.enclosing.length + room = limit →
    s.Leads limit ss ((PlacedNode.nodes ps).reverse ++ s.nodes) s.enclosing

/-- Wherever they fit, the segments end the chain of the branch at hand with this condition. -/
def Ends (limit : Nat) (inPart : Bool) (room : Nat) (test : Expr) (first before : Text)
    (ss : List Segment) (p : PlacedNode) : Prop :=
  ∀ (s : NodeProgress) (ahead : List Node) (earlier : List Branch) (opened : Nat)
    (rest : List OpenBlock), s.line = before.endLine → s.inPart = inPart →
    s.enclosing = .branch ahead earlier test first.endLine opened :: rest →
    rest.length + 1 + room = limit → s.nodes = [] →
    s.Leads limit ss (Branch.chain p.node earlier :: ahead) rest

theorem reverse_nodes_cons (p : PlacedNode) (ps : List PlacedNode) (ns : List Node) :
    (PlacedNode.nodes (p :: ps)).reverse ++ ns = (PlacedNode.nodes ps).reverse ++ p.node :: ns := by
  rw [PlacedNode.nodes, List.reverse_cons, List.append_assoc]
  rfl

theorem adds_cons {inPart : Bool} {room : Nat} {before : Text} {p : PlacedNode}
    {ps : List PlacedNode}
    (hstep : ∀ s : NodeProgress, s.inPart = inPart → s.line = before.endLine →
      s.step limit segment = .ok ((s.past segment).add p.node))
    (h : Adds limit inPart room (before ++ segment.raw) ss ps) :
    Adds limit inPart room before (segment :: ss) (p :: ps) := by
  intro s hline hpart hroom
  have hmid := hstep s hpart hline
  have hrest := h _ (line_of_step_eq hmid hline) hpart hroom
  rw [reverse_nodes_cons]
  exact leads_cons hmid rfl (fun _ => rfl) hrest

theorem adds_part {room : Nat} {before : Text} {name : Expr} {close : Segment}
    {children ps : List PlacedNode} (hs : segment.Requires .part name)
    (hchildren : Adds limit true room (before ++ segment.raw) ss children)
    (hclose : close.Names .endPart)
    (h : Adds limit false (room + 1) (before ++ source (segment :: (ss ++ [close]))) ts ps) :
    Adds limit false (room + 1) before (segment :: (ss ++ [close]) ++ ts)
      (.part name (source ss) children before (before ++ segment.raw) :: ps) := by
  intro s hline hpart hroom
  have hopen := (Takes.part hs hpart (by omega : s.enclosing.length < limit)).step
  have hinside := line_of_step_eq hopen hline
  obtain ⟨mid, hrun, -, hnodes, henclosing, hbody⟩ :=
    hchildren _ hinside rfl (by simp only [List.length_cons]; omega)
  have hend := (Closes.endPart hclose henclosing).step limit
  have hwhole := run_cons_of_step hopen (ss ++ [close])
  rw [run_append_of_run hrun, run_cons_of_step hend, run] at hwhole
  have hnode : Node.part name (source mid.body.reverse) mid.nodes.reverse s.line
      (s.past segment).line =
        (PlacedNode.part name (source ss) children before (before ++ segment.raw)).node := by
    rw [hbody rfl, hnodes, List.append_nil, List.append_nil, List.reverse_reverse,
      List.reverse_reverse, hline, PlacedNode.node, ← hinside]
  refine leads_append hwhole hpart.symm
    (fun hin => absurd (hpart.symm.trans hin) Bool.false_ne_true) ?_
  rw [reverse_nodes_cons, ← hnode]
  exact h _ (line_of_run_eq hwhole hline) rfl hroom

theorem adds_conditional {inPart : Bool} {room : Nat} {before : Text} {test : Expr}
    {p : PlacedNode} {ps : List PlacedNode} (hs : segment.Requires .ifThen test)
    (hchain : Ends limit inPart room test before (before ++ segment.raw) ss p)
    (h : Adds limit inPart (room + 1) (before ++ source (segment :: ss)) ts ps) :
    Adds limit inPart (room + 1) before (segment :: ss ++ ts) (p :: ps) := by
  intro s hline hpart hroom
  have hopen := (Takes.ifThen hs (by omega : s.enclosing.length < limit)).step
  obtain ⟨mid, hrun, hmid, hnodes, henclosing, hbody⟩ :=
    hchain _ s.nodes [] s.line s.enclosing (line_of_step_eq hopen hline) hpart (by rw [hline])
      (by omega) rfl
  have hwhole := run_cons_of_step hopen ss
  rw [hrun] at hwhole
  refine leads_append hwhole hmid (fun hin => ?_) ?_
  · rw [hbody hin, List.reverse_cons, List.append_assoc]
    rfl
  · have hrest := h mid (line_of_run_eq hwhole hline) (hmid.trans hpart)
      (by rw [henclosing]; exact hroom)
    rw [hnodes, henclosing] at hrest
    rw [reverse_nodes_cons]
    exact hrest

/-- A branch is read up to the step that ends it. -/
theorem ends_of_adds {inPart : Bool} {room : Nat} {test : Expr} {first before : Text}
    {yes : List PlacedNode} {p : PlacedNode} (hyes : Adds limit inPart room before ss yes)
    (h : ∀ (s : NodeProgress) (ahead : List Node) (earlier : List Branch) (opened : Nat)
      (rest : List OpenBlock), s.line = (before ++ source ss).endLine → s.inPart = inPart →
      s.enclosing = .branch ahead earlier test first.endLine opened :: rest →
      rest.length + 1 + room = limit → s.nodes = (PlacedNode.nodes yes).reverse →
      s.Leads limit ts (Branch.chain p.node earlier :: ahead) rest) :
    Ends limit inPart room test first before (ss ++ ts) p := by
  intro s ahead earlier opened rest hline hpart henclosing hroom hnodes
  obtain ⟨mid, hrun, hmid, hread, hkept, hbody⟩ :=
    hyes s hline hpart (by rw [henclosing]; exact hroom)
  refine leads_append hrun hmid hbody ?_
  exact h mid ahead earlier opened rest (line_of_run_eq hrun hline) (hmid.trans hpart)
    (hkept.trans henclosing) hroom (by rw [hread, hnodes, List.append_nil])

-- The blocks that are open stay as they are under all that a derivation reads, so what it adds does
-- not depend on them.
theorem adds_of_items {inPart : Bool} {room : Nat} {before : Text} {ps : List PlacedNode}
    (h : Items inPart room before ss ps) : Adds limit inPart room before ss ps := by
  induction h using Items.rec
    (motive_2 := fun inPart room test first before ss p _ =>
      Ends limit inPart room test first before ss p) with
  | nil => exact fun s _ _ _ => leads_nil
  | text hs _ ih =>
    refine adds_cons (fun s _ hline => ?_) ih
    rw [(Takes.text hs).step, hline]
    rfl
  | showPart hs _ ih =>
    refine adds_cons (fun s _ hline => ?_) ih
    rw [(Takes.showPart hs).step, hline]
    rfl
  | showParent hs hx _ ih =>
    refine adds_cons (fun s _ hline => ?_) ih
    rw [(Takes.showParent hs hx).step, hline]
    rfl
  | part hs _ hclose _ ihchildren ih => exact adds_part hs ihchildren hclose ih
  | conditional hs _ _ ihchain ih => exact adds_conditional hs ihchain ih
  | close _ hs ih =>
    refine ends_of_adds ih fun s ahead earlier opened rest _ _ henclosing _ hnodes => ?_
    have hend := (Closes.endBranch hs henclosing).step limit
    rw [hnodes, List.reverse_reverse] at hend
    exact leads_cons hend rfl (fun _ => rfl) leads_nil
  | otherwise _ hs _ hclose ihyes ihno =>
    refine ends_of_adds ihyes
      fun s ahead earlier opened rest hline hpart henclosing hroom hnodes => ?_
    have hturn := (Closes.otherwise hs henclosing).step limit
    rw [hnodes, List.reverse_reverse] at hturn
    refine leads_cons hturn rfl (fun _ => rfl) ?_
    obtain ⟨mid, hrun, hmid, hread, hkept, hbody⟩ :=
      ihno _ (line_of_step_eq hturn hline) hpart hroom
    have hend := (Closes.endOtherwise hclose hkept).step limit
    rw [hread, List.append_nil, List.reverse_reverse] at hend
    exact leads_append hrun hmid hbody (leads_cons hend rfl (fun _ => rfl) leads_nil)
  | elseIf _ hs _ ih ihchain =>
    refine ends_of_adds ih
      fun s ahead earlier opened rest hline hpart henclosing hroom hnodes => ?_
    have hturn := (Closes.elseIf hs henclosing).step limit
    rw [hnodes, List.reverse_reverse] at hturn
    refine leads_cons hturn rfl (fun _ => rfl) ?_
    have hrest := ihchain _ ahead _ opened rest (line_of_step_eq hturn hline) hpart
      (by rw [hline]) hroom rfl
    exact hrest

/-- The segments begin with nodes, and go on with the end of a block if at all. -/
def Splits (limit room : Nat) (before : Text) (s final : NodeProgress) (ss : List Segment) : Prop :=
  ∃ head tail ps mid, ss = head ++ tail ∧ Items s.inPart room before head ps ∧
    s.run limit head = .ok mid ∧
    (tail = [] ∨ ∃ close rest next, tail = close :: rest ∧ Closes mid close next ∧
      next.run limit rest = .ok final)

theorem Splits.prepend {room : Nat} {before after : Text} {p : PlacedNode} {final : NodeProgress}
    (hrun : s.run limit ts = .ok next)
    (hitems : ∀ head ps, Items next.inPart room after head ps →
      Items s.inPart room before (ts ++ head) (p :: ps))
    (h : Splits limit room after next final ss) : Splits limit room before s final (ts ++ ss) := by
  obtain ⟨head, tail, ps, mid, rfl, hhead, hmid, hafter⟩ := h
  refine ⟨ts ++ head, tail, p :: ps, mid, (List.append_assoc ..).symm, hitems head ps hhead, ?_,
    hafter⟩
  rw [run_append_of_run hrun, hmid]

def SplitsItems (ss : List Segment) : Prop :=
  ∀ {limit room : Nat} {before : Text} {s final : NodeProgress}, s.line = before.endLine →
    s.enclosing.length + room = limit → s.run limit ss = .ok final → final.enclosing = [] →
    Splits limit room before s final ss

/-- The segments begin with the end of the chain at hand. -/
def SplitsChain (ss : List Segment) : Prop :=
  ∀ {limit room : Nat} {before : Text} {s final : NodeProgress} {ahead : List Node}
    {earlier : List Branch} {asked : Expr} {line opened : Nat} {rest : List OpenBlock}
    (test : Expr) (first : Text), s.line = before.endLine →
    s.enclosing = .branch ahead earlier asked line opened :: rest →
    rest.length + 1 + room = limit → s.run limit ss = .ok final → final.enclosing = [] →
    ∃ head tail p mid, ss = head ++ tail ∧ Chain s.inPart room test first before head p ∧
      s.run limit head = .ok mid ∧ mid.run limit tail = .ok final ∧ mid.inPart = s.inPart ∧
      mid.enclosing = rest

/-- A block that is open is closed at some point. -/
theorem exists_closes {room : Nat} {before : Text} {final : NodeProgress} {b : OpenBlock}
    {rest : List OpenBlock} (h : SplitsItems ss) (hline : s.line = before.endLine)
    (hopen : s.enclosing = b :: rest) (hroom : rest.length + 1 + room = limit)
    (hrun : s.run limit ss = .ok final) (hfinal : final.enclosing = []) :
    ∃ head close tail ps mid next, ss = head ++ close :: tail ∧
      Items s.inPart room before head ps ∧ s.run limit head = .ok mid ∧ mid.inPart = s.inPart ∧
      mid.enclosing = b :: rest ∧ Closes mid close next ∧ next.run limit tail = .ok final := by
  have hroom' : s.enclosing.length + room = limit := by rw [hopen]; exact hroom
  obtain ⟨head, tail, ps, mid, rfl, hitems, hmid, hafter⟩ := h hline hroom' hrun hfinal
  -- Reading nodes leaves the block open, so the segments cannot end with them.
  obtain ⟨read, hread, hpart, -, henclosing, -⟩ := adds_of_items hitems s hline rfl hroom'
  cases hmid.symm.trans hread
  rw [hopen] at henclosing
  rcases hafter with rfl | ⟨close, rest, next, rfl, hcloses, hnext⟩
  · rw [List.append_nil, hmid] at hrun
    cases hrun
    rw [hfinal] at henclosing
    cases henclosing
  · exact ⟨head, close, rest, ps, mid, next, rfl, hitems, hmid, hpart, henclosing, hcloses, hnext⟩

theorem splitsChain (hitems : SplitsItems ss)
    (ih : ∀ ts : List Segment, ts.length < ss.length → SplitsItems ts ∧ SplitsChain ts) :
    SplitsChain ss := by
  intro limit room before s final ahead earlier asked line opened rest test first hline henclosing
    hroom hrun hfinal
  obtain ⟨head, close, tail, yes, mid, next, rfl, hyes, hmid, hpart, hkept, hcloses, htail⟩ :=
    exists_closes hitems hline henclosing hroom hrun hfinal
  have hstep := line_of_step_eq (hcloses.step limit) (line_of_run_eq hmid hline)
  have hshorter : tail.length < (head ++ close :: tail).length := by
    rw [List.length_append, List.length_cons]
    omega
  have hreach : ∀ ts, s.run limit (head ++ close :: ts) = next.run limit ts := fun ts => by
    rw [run_append_of_run hmid, run_cons_of_step (hcloses.step limit)]
  -- The block at hand is a branch, which only these steps end.
  cases hcloses with
  | endPart _ hother => cases hkept.symm.trans hother
  | @elseIf after _ _ _ _ _ _ hs hsame =>
    cases hkept.symm.trans hsame
    obtain ⟨head', tail', p, mid', rfl, hchain, hmid', hlast, hpart', hrest⟩ :=
      (ih tail hshorter).2 after (before ++ source head) hstep rfl hroom htail hfinal
    have hbranch := hpart ▸ hchain
    refine ⟨head ++ close :: head', tail', _, mid', ?_, .elseIf hyes hs hbranch, ?_, hlast,
      hpart'.trans hpart, hrest⟩
    · rw [List.append_assoc, List.cons_append]
    · rw [hreach, hmid']
  | otherwise hs hsame =>
    cases hkept.symm.trans hsame
    obtain ⟨head', close', tail', no, mid', next', rfl, hno, hmid', hpart', hkept', hcloses',
      htail'⟩ := exists_closes (ih tail hshorter).1 hstep rfl hroom htail hfinal
    cases hcloses' with
    | endPart _ hother => cases hkept'.symm.trans hother
    | elseIf _ hother => cases hkept'.symm.trans hother
    | otherwise _ hother => cases hkept'.symm.trans hother
    | endBranch _ hother => cases hkept'.symm.trans hother
    | endOtherwise hend hsame' =>
      cases hkept'.symm.trans hsame'
      have hbranch := hpart ▸ hno
      have hend' := (Closes.endOtherwise hend hsame').step limit
      refine ⟨head ++ close :: (head' ++ [close']), tail', _, _, ?_,
        .otherwise hyes hs hbranch hend, ?_, htail', hpart'.trans hpart, rfl⟩
      · rw [List.append_assoc, List.cons_append, List.append_assoc]
        rfl
      · rw [hreach, run_append_of_run hmid', run_cons_of_step hend', run]
  | endBranch hs hsame =>
    cases hkept.symm.trans hsame
    refine ⟨head ++ [close], tail, _, _, ?_, .close hyes hs, ?_, htail, hpart, rfl⟩
    · rw [List.append_assoc]
      rfl
    · rw [hreach, run]
  | endOtherwise _ hother => cases hkept.symm.trans hother

theorem splits_part {room : Nat} {before : Text} {name : Expr} {final : NodeProgress}
    (ih : ∀ ts : List Segment, ts.length ≤ ss.length → SplitsItems ts)
    (hline : s.line = before.endLine) (hroom : s.enclosing.length + room = limit)
    (hs : segment.Requires .part name) (hpart : s.inPart = false)
    (hfits : s.enclosing.length < limit) (hrun : s.run limit (segment :: ss) = .ok final)
    (hfinal : final.enclosing = []) :
    Splits limit room before s final (segment :: ss) := by
  obtain ⟨room, rfl⟩ : ∃ n, room = n + 1 := ⟨room - 1, by omega⟩
  have hinner : s.enclosing.length + 1 + room = limit := by omega
  have hopen := (Takes.part hs hpart hfits).step
  rw [run_cons_of_step hopen] at hrun
  obtain ⟨head, close, tail, children, mid, next, rfl, hchildren, hmid, -, hkept, hcloses,
    htail⟩ := exists_closes (ih ss (Nat.le_refl _)) (line_of_step_eq hopen hline) rfl hinner hrun
      hfinal
  have hwhole : s.run limit (segment :: (head ++ [close])) = .ok next := by
    rw [run_cons_of_step hopen, run_append_of_run hmid, run_cons_of_step (hcloses.step limit), run]
  have hshorter : tail.length ≤ (head ++ close :: tail).length := by
    rw [List.length_append, List.length_cons]
    omega
  have hafter := line_of_run_eq hwhole hline
  cases hcloses with
  | endPart hend hsame =>
    cases hkept.symm.trans hsame
    have hsplit := (ih tail hshorter hafter hroom htail hfinal).prepend hwhole
      fun _ _ h => hpart.symm ▸ Items.part hs hchildren hend h
    rwa [List.cons_append, List.append_assoc] at hsplit
  | elseIf _ hother => cases hkept.symm.trans hother
  | otherwise _ hother => cases hkept.symm.trans hother
  | endBranch _ hother => cases hkept.symm.trans hother
  | endOtherwise _ hother => cases hkept.symm.trans hother

theorem splits_conditional {room : Nat} {before : Text} {test : Expr} {final : NodeProgress}
    (ih : ∀ ts : List Segment, ts.length ≤ ss.length → SplitsItems ts) (hchain : SplitsChain ss)
    (hline : s.line = before.endLine) (hroom : s.enclosing.length + room = limit)
    (hs : segment.Requires .ifThen test) (hfits : s.enclosing.length < limit)
    (hrun : s.run limit (segment :: ss) = .ok final) (hfinal : final.enclosing = []) :
    Splits limit room before s final (segment :: ss) := by
  obtain ⟨room, rfl⟩ : ∃ n, room = n + 1 := ⟨room - 1, by omega⟩
  have hinner : s.enclosing.length + 1 + room = limit := by omega
  have hopen := (Takes.ifThen hs hfits).step
  rw [run_cons_of_step hopen] at hrun
  obtain ⟨head, tail, p, mid, rfl, hhead, hmid, htail, hpart, hkept⟩ :=
    hchain test before (line_of_step_eq hopen hline) rfl hinner hrun hfinal
  have hwhole : s.run limit (segment :: head) = .ok mid := by rw [run_cons_of_step hopen, hmid]
  have hshorter : tail.length ≤ (head ++ tail).length := by
    rw [List.length_append]
    omega
  have hroom' : mid.enclosing.length + (room + 1) = limit := by rw [hkept]; exact hroom
  exact (ih tail hshorter (line_of_run_eq hwhole hline) hroom' htail hfinal).prepend hwhole
    fun _ _ h => .conditional hs hhead (hpart ▸ h)

theorem splitsItems
    (ih : ∀ ts : List Segment, ts.length < ss.length → SplitsItems ts ∧ SplitsChain ts) :
    SplitsItems ss := by
  intro limit room before s final hline hroom hrun hfinal
  cases ss with
  | nil => exact ⟨[], [], [], s, rfl, .nil, rfl, .inl rfl⟩
  | cons segment ss =>
    have hitems : ∀ ts : List Segment, ts.length ≤ ss.length → SplitsItems ts :=
      fun ts hts => (ih ts (Nat.lt_succ_of_le hts)).1
    cases hstep : s.step limit segment with
    | error f =>
      rw [run, hstep] at hrun
      cases hrun
    | ok next =>
      have hread := run_singleton_of_step hstep
      have htail := hrun
      rw [run_cons_of_step hstep] at htail
      have hsplit : next.enclosing.length + room = limit →
          Splits limit room (before ++ segment.raw) next final ss := fun hnext =>
        hitems ss (Nat.le_refl _) (line_of_step_eq hstep hline) hnext htail hfinal
      rcases step_eq_ok_iff.mp hstep with htakes | hcloses
      · cases htakes with
        | text hs => exact (hsplit hroom).prepend hread fun _ _ => .text hs
        | showPart hs => exact (hsplit hroom).prepend hread fun _ _ => .showPart hs
        | showParent hs hx => exact (hsplit hroom).prepend hread fun _ _ => .showParent hs hx
        | part hs hpart hfits => exact splits_part hitems hline hroom hs hpart hfits hrun hfinal
        | ifThen hs hfits =>
          exact splits_conditional hitems (ih ss (Nat.lt_succ_self _)).2 hline hroom hs hfits hrun
            hfinal
      · exact ⟨[], segment :: ss, [], s, rfl, .nil, rfl,
          .inr ⟨segment, ss, next, rfl, hcloses, htail⟩⟩

-- On the number of segments: a chain begins with the nodes of its first branch, in the same
-- segments, and everything else comes up further on.
theorem splits (ss : List Segment) : SplitsItems ss ∧ SplitsChain ss := by
  induction hn : ss.length using Nat.strongRecOn generalizing ss with
  | ind n ih =>
    subst hn
    have hshorter : ∀ ts : List Segment, ts.length < ss.length → SplitsItems ts ∧ SplitsChain ts :=
      fun ts hts => ih ts.length hts ts rfl
    exact ⟨splitsItems hshorter, splitsChain (splitsItems hshorter) hshorter⟩

end NodeProgress

theorem NodeProgress.finish_eq_ok_iff {s : NodeProgress} {ns : List Node} :
    s.finish = .ok ns ↔ s.enclosing = [] ∧ s.nodes.reverse = ns := by
  unfold finish
  cases s.enclosing with
  | nil => simp
  | cons b rest => simp

theorem parseNodes_eq_ok_iff_run {limit : Nat} {inPart : Bool} {ss : List Segment}
    {ns : List Node} : parseNodes limit inPart ss = .ok ns ↔
      ∃ final, (NodeProgress.start inPart).run limit ss = .ok final ∧ final.finish = .ok ns := by
  unfold parseNodes
  cases (NodeProgress.start inPart).run limit ss with
  | error f => simp
  | ok final => simp

theorem items_of_parseNodes {limit : Nat} {inPart : Bool} {ss : List Segment} {ns : List Node}
    (h : parseNodes limit inPart ss = .ok ns) : ∃ ps, Items inPart limit [] ss ps := by
  obtain ⟨final, hrun, hfinish⟩ := parseNodes_eq_ok_iff_run.mp h
  have hfinal := (NodeProgress.finish_eq_ok_iff.mp hfinish).1
  have hline : (NodeProgress.start inPart).line = Text.endLine [] := rfl
  obtain ⟨head, tail, ps, mid, rfl, hitems, hmid, hafter⟩ :=
    (NodeProgress.splits ss).1 hline (Nat.zero_add limit) hrun hfinal
  obtain ⟨read, hread, -, -, henclosing, -⟩ :=
    NodeProgress.adds_of_items hitems (.start inPart) rfl rfl (Nat.zero_add limit)
  cases hmid.symm.trans hread
  rcases hafter with rfl | ⟨close, rest, next, rfl, hcloses, -⟩
  · rw [List.append_nil]
    exact ⟨ps, hitems⟩
  · exact absurd henclosing hcloses.enclosing_ne_nil

theorem parseNodes_of_items {limit : Nat} {inPart : Bool} {ss : List Segment}
    {ps : List PlacedNode} (h : Items inPart limit [] ss ps) :
    parseNodes limit inPart ss = .ok (PlacedNode.nodes ps) := by
  obtain ⟨next, hrun, -, hnodes, henclosing, -⟩ :=
    NodeProgress.adds_of_items h (.start inPart) rfl rfl (Nat.zero_add limit)
  refine parseNodes_eq_ok_iff_run.mpr ⟨next, hrun, NodeProgress.finish_eq_ok_iff.mpr ?_⟩
  refine ⟨henclosing, ?_⟩
  rw [hnodes, List.reverse_append, List.reverse_reverse]
  rfl

/-- Segments parse exactly if they are laid out as nodes, and those are the result. -/
theorem parseNodes_eq_ok_iff {limit : Nat} {inPart : Bool} {ss : List Segment} {ns : List Node} :
    parseNodes limit inPart ss = .ok ns ↔
      ∃ ps, Items inPart limit [] ss ps ∧ PlacedNode.nodes ps = ns := by
  constructor
  · intro h
    obtain ⟨ps, hps⟩ := items_of_parseNodes h
    exact ⟨ps, hps, Except.ok.inj ((parseNodes_of_items hps).symm.trans h)⟩
  · rintro ⟨ps, hps, rfl⟩
    exact parseNodes_of_items hps

end Stencil
