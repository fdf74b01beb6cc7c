/- What the segments of a text come to once some of them are read, as they open and end blocks. -/
import Stencil.Node.Descent
import Stencil.Node.Parser

namespace Stencil

/-- A finished branch as it is written. -/
def Branch.arm (b : Branch) : Arm Node := ⟨some b.test, b.line, b.nodes⟩

/-- Branches that are put together from the last one on are put inside each other. -/
theorem Branch.chain_eq {last : Node} {arms : List (Arm Node)} (h : chainArms arms = [last])
    (earlier : List Branch) :
    chainArms (earlier.reverse.map Branch.arm ++ arms) = [Branch.chain last earlier] := by
  induction earlier generalizing last arms with
  | nil => exact h
  | cons b earlier ih =>
    have hnext : chainArms (b.arm :: arms) = [b.node [last]] := by
      rw [← h]
      rfl
    rw [List.reverse_cons, List.map_append, List.append_assoc]
    exact ih hnext

/-- Whether the enclosure is the innermost of the open blocks. -/
def Enclosure.Fits : Enclosure → List OpenBlock → Prop
  | .root, [] => True
  | .part, .part .. :: _ => True
  | .conditional, .branch .. :: _ => True
  | .conditional, .otherwise .. :: _ => True
  | _, _ => False

theorem Enclosure.Fits.part {block : Enclosure} {before : List Node} {name : Expr}
    {opened bodyLine : Nat} {outer : List OpenBlock}
    (h : block.Fits (.part before name opened bodyLine :: outer)) : block = .part := by
  cases block with
  | part => rfl
  | _ => exact h.elim

theorem Enclosure.Fits.branch {block : Enclosure} {before : List Node} {earlier : List Branch}
    {test : Expr} {line opened : Nat} {outer : List OpenBlock}
    (h : block.Fits (.branch before earlier test line opened :: outer)) : block = .conditional := by
  cases block with
  | conditional => rfl
  | _ => exact h.elim

theorem Enclosure.Fits.otherwise {block : Enclosure} {before : List Node} {earlier : List Branch}
    {last : Branch} {opened : Nat} {outer : List OpenBlock}
    (h : block.Fits (.otherwise before earlier last opened :: outer)) : block = .conditional := by
  cases block with
  | conditional => rfl
  | _ => exact h.elim

namespace Terminator

/-- Ends the innermost open block. -/
def apply (s : NodeProgress) : Terminator → Except Cause NodeProgress
  | .endPart => s.closePart "endpart".toList
  | .elseIf test line =>
    match s.enclosing with
    | .branch before earlier first opening opened :: rest =>
      let done := ⟨first, opening, s.nodes.reverse⟩ :: earlier
      .ok { s with nodes := [], enclosing := .branch before done test line opened :: rest }
    | .otherwise .. :: _ => .error .branchAfterElse
    | _ => .error (.stray "elseif".toList .conditional)
  | .otherwise _ => s.lastBranch "else".toList
  | .endIf => s.closeBranches "endif".toList

/-- The terminator ends an enclosure of that kind, on that line if it knows its line. -/
def Ends (block : Enclosure) (line : Nat) : Terminator → Prop
  | .endPart => block = .part
  | .elseIf _ own => block = .conditional ∧ own = line
  | .otherwise own => block = .conditional ∧ own = line
  | .endIf => block = .conditional

end Terminator

namespace NodeProgress

/-- What segments read in part come to with those that are left. -/
def comesTo (limit : Nat) (s : NodeProgress) (ss : List Segment) : Except Failure (List Node) :=
  match s.run limit ss with
  | .ok s => s.finish
  | .error f => .error f

/-- What is read comes to that after a step on that line. -/
def comesToFrom (limit line : Nat) (ss : List Segment) :
    Except Cause NodeProgress → Except Failure (List Node)
  | .ok s => s.comesTo limit ss
  | .error cause => .error ⟨cause, line⟩

/-- What is read comes to that once the terminator at hand has ended its block. -/
def comesToAfter (limit : Nat) (s : NodeProgress) (t : Terminator) (segment : Segment)
    (rest : List Segment) : Except Failure (List Node) :=
  comesToFrom limit s.line rest (t.apply (s.advance segment (s.line + segment.raw.newlines)))

variable {limit : Nat} {s next last : NodeProgress} {segment : Segment} {ss : List Segment}

/-- The segment is read and has left those nodes and open blocks. -/
def leaving (s : NodeProgress) (segment : Segment) (nodes : List Node)
    (enclosing : List OpenBlock) : NodeProgress :=
  ⟨s.line + segment.raw.newlines, nodes, enclosing, segment :: s.body, s.inPart⟩

theorem comesToAfter_of_apply {t : Terminator} {rest : List Segment} {ns : List Node}
    {outer : List OpenBlock}
    (h : t.apply (s.advance segment (s.line + segment.raw.newlines)) =
      .ok (s.leaving segment ns outer)) :
    s.comesToAfter limit t segment rest = (s.leaving segment ns outer).comesTo limit rest := by
  rw [comesToAfter, h, comesToFrom]

theorem comesToAfter_of_apply_error {t : Terminator} {rest : List Segment} {cause : Cause}
    (h : t.apply (s.advance segment (s.line + segment.raw.newlines)) = .error cause) :
    s.comesToAfter limit t segment rest = .error ⟨cause, s.line⟩ := by
  rw [comesToAfter, h, comesToFrom]

theorem comesTo_of_verbatim (h : segment.isDirective = false) :
    s.comesTo limit (segment :: ss) =
      (s.leaving segment (.text segment.raw s.line :: s.nodes) s.enclosing).comesTo limit ss := by
  have hstep : s.step limit segment =
      .ok (s.leaving segment (.text segment.raw s.line :: s.nodes) s.enclosing) := by
    cases segment with
    | directive opening lead name argument closing => cases h
    | _ => rfl
  rw [comesTo, run, hstep]
  rfl

theorem comesTo_of_directive (opening lead name argument closing : Text) :
    s.comesTo limit (.directive opening lead name argument closing :: ss) =
      comesToFrom limit s.line ss
        ((s.leaving (.directive opening lead name argument closing) s.nodes
          s.enclosing).atDirective limit s.line
          (s.line + Text.newlines (Segment.raw (.directive opening lead name argument closing)))
          name (Segment.expression? argument)) := by
  have hadvance : s.leaving (.directive opening lead name argument closing) s.nodes s.enclosing =
      s.advance (.directive opening lead name argument closing) _ := rfl
  rw [hadvance, comesTo, run, step]
  cases atDirective limit s.line _ (s.advance _ _) name (Segment.expression? argument) <;> rfl

theorem push_leaving (limit : Nat) (b : OpenBlock) (s : NodeProgress) (segment : Segment) :
    (s.leaving segment s.nodes s.enclosing).push limit b =
      if limit < s.enclosing.length + 1 then .error (.directivesTooDeep limit)
      else .ok (s.leaving segment [] (b :: s.enclosing)) := by
  rw [push]
  by_cases hroom : limit < s.enclosing.length + 1
  · have hfull : ¬ (s.leaving segment s.nodes s.enclosing).enclosing.length < limit :=
      Nat.not_lt.mpr (Nat.le_of_lt_succ hroom)
    rw [if_pos hroom, if_neg hfull]
  · have hfree : (s.leaving segment s.nodes s.enclosing).enclosing.length < limit :=
      Nat.lt_of_succ_le (Nat.le_of_not_lt hroom)
    rw [if_neg hroom, if_pos hfree]
    rfl

/-- Reading those segments gives those nodes and leaves the blocks as they are. -/
structure Gains (s : NodeProgress) (ns : List Node) (used : List Segment) (next : NodeProgress) :
    Prop where
  line : next.line = s.line + Text.newlines (source used)
  nodes : next.nodes = ns.reverse ++ s.nodes
  enclosing : next.enclosing = s.enclosing
  inPart : next.inPart = s.inPart
  -- Outside of a part no segments need to be kept.
  body : s.inPart = true → next.body = used.reverse ++ s.body

theorem Gains.refl (s : NodeProgress) : s.Gains [] [] s := ⟨rfl, rfl, rfl, rfl, fun _ => rfl⟩

theorem Gains.trans {ns ms : List Node} {us vs : List Segment} (h : s.Gains ns us next)
    (h' : next.Gains ms vs last) : s.Gains (ns ++ ms) (us ++ vs) last where
  line := by rw [h'.line, h.line, source_append, Text.newlines_append, Nat.add_assoc]
  nodes := by rw [h'.nodes, h.nodes, List.reverse_append, List.append_assoc]
  enclosing := h'.enclosing.trans h.enclosing
  inPart := h'.inPart.trans h.inPart
  body hs := by
    rw [h'.body (h.inPart.trans hs), h.body hs, List.reverse_append, List.append_assoc]

theorem Gains.single (s : NodeProgress) (n : Node) (segment : Segment) :
    s.Gains [n] [segment] (s.leaving segment (n :: s.nodes) s.enclosing) where
  line := by rw [source_singleton]; rfl
  nodes := rfl
  enclosing := rfl
  inPart := rfl
  body _ := rfl

/-- Once a terminator has ended a block, what it held is gained outside of it. -/
theorem Gains.outside {ns before : List Node} {used : List Segment} {last : NodeProgress}
    (h : s.Gains ns used last) (ms : List Node) (outer : List OpenBlock) (segment : Segment) :
    Gains { s with nodes := before, enclosing := outer } ms (used ++ [segment])
      (last.leaving segment (ms.reverse ++ before) outer) where
  line := by
    rw [leaving, h.line, source_append, source_singleton, Text.newlines_append, Nat.add_assoc]
  nodes := rfl
  enclosing := rfl
  inPart := h.inPart
  body hs := by
    rw [leaving, h.body hs, List.reverse_append]
    rfl

theorem nextBranch_eq (h : Enclosure.conditional.Fits s.enclosing) (line : Nat) (name : Text)
    (expression : Option Text) :
    s.nextBranch line name expression =
      match argument name expression with
      | .error cause => .error cause
      | .ok test => Terminator.apply s (.elseIf test line) := by
  rw [nextBranch]
  cases henclosing : s.enclosing with
  | nil =>
    rw [henclosing] at h
    exact h.elim
  | cons b rest =>
    cases b with
    | part before part opened bodyLine =>
      rw [henclosing] at h
      exact h.elim
    | branch before earlier test first opened =>
      cases argument name expression with
      | error cause => rfl
      | ok next =>
        show _ = Terminator.apply s (.elseIf next line)
        rw [Terminator.apply, henclosing]
        rfl
    | otherwise before earlier last opened =>
      cases argument name expression with
      | error cause => rfl
      | ok next =>
        show _ = Terminator.apply s (.elseIf next line)
        rw [Terminator.apply, henclosing]

section Strays

variable {block : Enclosure} (h : block.Fits s.enclosing) (name : Text)
include h

theorem closePart_of_fits (hne : block ≠ .part) :
    s.closePart name = .error (.stray name .part) := by
  unfold closePart
  split
  next henclosing => exact absurd (henclosing ▸ h).part hne
  next => rfl

theorem nextBranch_of_fits (hne : block ≠ .conditional) (line : Nat) (expression : Option Text) :
    s.nextBranch line name expression = .error (.stray name .conditional) := by
  unfold nextBranch
  split
  next henclosing => exact absurd (henclosing ▸ h).branch hne
  next henclosing => exact absurd (henclosing ▸ h).otherwise hne
  next => rfl

theorem lastBranch_of_fits (hne : block ≠ .conditional) :
    s.lastBranch name = .error (.stray name .conditional) := by
  unfold lastBranch
  split
  next henclosing => exact absurd (henclosing ▸ h).branch hne
  next henclosing => exact absurd (henclosing ▸ h).otherwise hne
  next => rfl

theorem closeBranches_of_fits (hne : block ≠ .conditional) :
    s.closeBranches name = .error (.stray name .conditional) := by
  unfold closeBranches
  split
  next henclosing => exact absurd (henclosing ▸ h).branch hne
  next henclosing => exact absurd (henclosing ▸ h).otherwise hne
  next => rfl

end Strays

theorem apply_endPart {before : List Node} {name : Expr} {opened bodyLine : Nat}
    {outer : List OpenBlock} (h : s.enclosing = .part before name opened bodyLine :: outer)
    (segment : Segment) (next : Nat) :
    Terminator.apply (s.advance segment next) .endPart = .ok
      ⟨next, .part name (source s.body.reverse) s.nodes.reverse opened bodyLine :: before, outer,
        segment :: s.body, false⟩ := by
  rw [Terminator.apply, closePart, advance, h]
  rfl

end NodeProgress

end Stencil
