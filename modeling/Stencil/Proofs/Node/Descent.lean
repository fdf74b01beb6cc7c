/- Recursive descent over the passages of a text comes to the nodes and errors of its segments. -/
import Stencil.Proofs.Expr.Descent
import Stencil.Proofs.Node.BlockStack
import Stencil.Proofs.Node.Steps
import Stencil.Proofs.Segment.Passages

namespace Stencil

theorem Descent.argument_eq (name : Text) (expression : Option Text) (line : Nat) :
    argument name expression line =
      some ((NodeProgress.argument name expression).mapError (⟨·, line⟩)) := by
  cases expression with
  | none => rfl
  | some body =>
    rw [argument, Expr.descend_eq, NodeProgress.argument]
    cases Expr.parse body <;> rfl

namespace NodeProgress

open Statement

theorem allDefinitions_cons {a : Statement} {all : List Statement}
    (h : a.definitions = definitionsIn a.nodes)
    (hall : allDefinitions all = definitionsIn (allNodes all)) :
    allDefinitions (a :: all) = definitionsIn (allNodes (a :: all)) := by
  rw [allDefinitions, allNodes, definitionsIn_append, h, hall]

theorem armDefinitions_cons {test : Expr} {line : Nat} {all : List Statement}
    {arms : List (Arm Statement)} (h : allDefinitions all = definitionsIn (allNodes all))
    (harms : armDefinitions arms = definitionsIn (chainArms (armNodes arms))) :
    armDefinitions (⟨some test, line, all⟩ :: arms) =
      definitionsIn (chainArms (armNodes (⟨some test, line, all⟩ :: arms))) := by
  rw [armDefinitions, armNodes, chainArms, definitionsIn, Node.definitions, definitionsIn, h,
    harms, List.append_nil]

/-- In front of segments that start on that line, at that byte offset. -/
def cursorAt (line offset : Nat) (ss : List Segment) : Cursor := ⟨line, passagesOf line offset ss⟩

variable {limit : Nat} {s : NodeProgress} {ss : List Segment}

/-- The statements up to a terminator agree with the stack of blocks. -/
inductive Follows (limit : Nat) (block : Enclosure) (s : NodeProgress) (ss : List Segment) :
    Attempt Failure (List Statement × Option Terminator × Cursor) → Prop
  | error {f : Failure} : s.comesTo limit ss = .error f →
      Follows limit block s ss (some (.error f))
  | ended {all : List Statement} {last : NodeProgress} {c : Cursor} :
      s.Gains (allNodes all) ss last → allDefinitions all = definitionsIn (allNodes all) →
      s.comesTo limit ss = last.finish →
      Follows limit block s ss (some (.ok (all, none, c)))
  | terminated {all : List Statement} {t : Terminator} {used rest : List Segment}
      {segment : Segment} {last : NodeProgress} {offset : Nat} : ss = used ++ segment :: rest →
      s.Gains (allNodes all) used last → allDefinitions all = definitionsIn (allNodes all) →
      t.Ends block last.line →
      s.comesTo limit ss = last.comesToAfter limit t segment rest →
      Follows limit block s ss (some (.ok (all, some t,
        cursorAt (last.line + segment.raw.newlines) offset rest)))

/-- A statement, or a terminator, agrees with the stack of blocks. -/
inductive Advances (limit : Nat) (block : Enclosure) (s : NodeProgress) (segment : Segment)
    (ss : List Segment) : Attempt Failure (Contribution × Cursor) → Prop
  | error {f : Failure} : s.comesTo limit (segment :: ss) = .error f →
      Advances limit block s segment ss (some (.error f))
  | statement {a : Statement} {used rest : List Segment} {next : NodeProgress} {offset : Nat} :
      ss = used ++ rest → s.Gains a.nodes (segment :: used) next →
      a.definitions = definitionsIn a.nodes →
      s.comesTo limit (segment :: ss) = next.comesTo limit rest →
      Advances limit block s segment ss
        (some (.ok (.statement a, cursorAt next.line offset rest)))
  | terminator {t : Terminator} {offset : Nat} : t.Ends block s.line →
      s.comesTo limit (segment :: ss) = s.comesToAfter limit t segment ss →
      Advances limit block s segment ss
        (some (.ok (.terminator t, cursorAt (s.line + segment.raw.newlines) offset ss)))

/-- The innermost block is a chain of branches, of which `done` are finished. The one at hand has
that condition and starts on that line. -/
inductive Chained (s : NodeProgress) (before : List Node) (outer : List OpenBlock) (opened : Nat) :
    List (Arm Node) → Option Expr → Nat → Prop
  | branch {earlier : List Branch} {test : Expr} {line : Nat} :
      s.enclosing = .branch before earlier test line opened :: outer →
      Chained s before outer opened (earlier.reverse.map Branch.arm) (some test) line
  | otherwise {earlier : List Branch} {last : Branch} {line : Nat} :
      s.enclosing = .otherwise before earlier last opened :: outer →
      Chained s before outer opened (earlier.reverse.map Branch.arm ++ [last.arm]) none line

/-- Branches that are read up to the end of all of them agree with the stack of blocks, which then
holds the whole chain. -/
inductive ClosesChain (limit : Nat) (s : NodeProgress) (before : List Node) (outer : List OpenBlock)
    (done : List (Arm Node)) (ss : List Segment) :
    Attempt Failure (List (Arm Statement) × Cursor) → Prop
  | error {f : Failure} : s.comesTo limit ss = .error f →
      ClosesChain limit s before outer done ss (some (.error f))
  | arms {all : List (Arm Statement)} {used rest : List Segment} {next : NodeProgress}
      {offset : Nat} : ss = used ++ rest →
      armDefinitions all = definitionsIn (chainArms (armNodes all)) →
      Gains { s with nodes := before, enclosing := outer } (chainArms (done ++ armNodes all)) used
        next →
      s.comesTo limit ss = next.comesTo limit rest →
      ClosesChain limit s before outer done ss
        (some (.ok (all, cursorAt next.line offset rest)))

/-- With so much fuel, what is parsed agrees with the stack of blocks. -/
structure Agrees (limit fuel : Nat) : Prop where
  statements : ∀ block s offset ss, block.Fits s.enclosing → 3 * ss.length + 1 ≤ fuel →
    Follows limit block s ss (Descent.statements limit fuel block s.inPart s.enclosing.length
      (cursorAt s.line offset ss))
  passage : ∀ block s offset segment ss, block.Fits s.enclosing → 3 * ss.length + 3 ≤ fuel →
    Advances limit block s segment ss (Descent.passage limit fuel block s.inPart
      s.enclosing.length s.line (segment.passage s.line offset)
      (cursorAt (s.line + segment.raw.newlines) (offset + segment.raw.byteSize) ss))
  arms : ∀ s before outer opened done test line offset ss,
    Chained s before outer opened done test line → s.nodes = [] → 3 * ss.length + 2 ≤ fuel →
    ClosesChain limit s before outer done ss (Descent.arms limit fuel test line opened s.inPart
      s.enclosing.length (cursorAt s.line offset ss))

section

variable {fuel : Nat} (h : Agrees limit fuel)
include h

theorem Agrees.statements_succ {block : Enclosure} (offset : Nat) (hblock : block.Fits s.enclosing)
    (hfuel : 3 * ss.length + 1 ≤ fuel + 1) :
    Follows limit block s ss (Descent.statements limit (fuel + 1) block s.inPart s.enclosing.length
      (cursorAt s.line offset ss)) := by
  have hnone : s.Gains (allNodes []) [] s := .refl s
  cases ss with
  | nil =>
    rw [cursorAt, passagesOf, Descent.statements]
    exact .ended hnone rfl rfl
  | cons segment ss =>
    rw [List.length_cons] at hfuel
    have hpassage := h.passage block s offset segment ss hblock (by omega)
    rw [cursorAt, passagesOf, Descent.statements, raw_passage]
    change Follows limit block s _ (Attempt.andThen (Descent.passage limit fuel block s.inPart
      s.enclosing.length s.line (segment.passage s.line offset) (cursorAt _ _ ss)) _)
    generalize Descent.passage limit fuel block s.inPart s.enclosing.length s.line
      (segment.passage s.line offset) (cursorAt _ _ ss) = r at hpassage ⊢
    cases hpassage with
    | error he => exact .error he
    | terminator ht heq => exact .terminated (List.nil_append _).symm hnone rfl ht heq
    | @statement a used rest next offset' hss hgains hdefines heq =>
      have hrest := h.statements block next offset' rest (hgains.enclosing ▸ hblock)
        (by rw [hss, List.length_append] at hfuel; omega)
      rw [hgains.inPart, hgains.enclosing] at hrest
      change Follows limit block s _ (Attempt.andThen (Descent.statements limit fuel block s.inPart
        s.enclosing.length (cursorAt next.line offset' rest)) _)
      generalize Descent.statements limit fuel block s.inPart s.enclosing.length _ = r at hrest ⊢
      cases hrest with
      | error he => exact .error (heq.trans he)
      | @ended all last c hlast hdefinesAll hfinish =>
        have hall : s.Gains (allNodes (a :: all)) _ last := hgains.trans hlast
        refine .ended ?_ (allDefinitions_cons hdefines hdefinesAll) (heq.trans hfinish)
        rw [hss]
        exact hall
      | @terminated all t us rest' segment' last offset hused hlast hdefinesAll ht hafter =>
        have hall : s.Gains (allNodes (a :: all)) _ last := hgains.trans hlast
        refine .terminated ?_ hall (allDefinitions_cons hdefines hdefinesAll) ht
          (heq.trans hafter)
        rw [hss, hused]
        simp only [List.cons_append, List.append_assoc]

end

/-- A branch that has ended stands in front of those that are read after it. -/
theorem ClosesChain.cons {before ns : List Node} {outer : List OpenBlock} {done : List (Arm Node)}
    {used rest : List Segment} {segment : Segment} {last : NodeProgress} {b : OpenBlock}
    {test : Expr} {line : Nat} {children : List Statement}
    {r : Attempt Failure (List (Arm Statement) × Cursor)}
    (h : ClosesChain limit (last.leaving segment [] (b :: outer)) before outer
      (done ++ armNodes [⟨some test, line, children⟩]) rest r)
    (hgains : s.Gains ns used last)
    (hdefines : allDefinitions children = definitionsIn (allNodes children))
    (hss : ss = used ++ segment :: rest)
    (heq : s.comesTo limit ss = (last.leaving segment [] (b :: outer)).comesTo limit rest) :
    ClosesChain limit s before outer done ss
      (r.andThen fun (all, after) => some (.ok (⟨some test, line, children⟩ :: all, after))) := by
  cases h with
  | error he => exact .error (heq.trans he)
  | @arms all us rest' after offset hrest hdefinesAll hafter hsame =>
    have hall := (hgains.outside [] outer segment).trans hafter
    rw [List.append_assoc] at hall
    refine .arms ?_ (armDefinitions_cons hdefines hdefinesAll) hall (heq.trans hsame)
    rw [hss, hrest]
    simp only [List.append_assoc, List.cons_append, List.nil_append]

section

variable {fuel : Nat} (h : Agrees limit fuel)
include h

theorem Agrees.arms_past {before ns : List Node} {outer : List OpenBlock} {opened line : Nat}
    {done : List (Arm Node)} {test : Option Expr} {used rest : List Segment} {segment : Segment}
    {last : NodeProgress} {b : OpenBlock} (offset : Nat) (hgains : s.Gains ns used last)
    (hlength : (b :: outer).length = s.enclosing.length)
    (hchained : Chained (last.leaving segment [] (b :: outer)) before outer opened done test line)
    (hrest : 3 * rest.length + 2 ≤ fuel) :
    ClosesChain limit (last.leaving segment [] (b :: outer)) before outer done rest
      (Descent.arms limit fuel test line opened s.inPart s.enclosing.length
        (cursorAt (last.line + segment.raw.newlines) offset rest)) := by
  rw [← hgains.inPart, ← hlength]
  exact h.arms _ before outer opened done test line offset rest hchained rfl hrest

/-- A condition is tried until a branch is taken, so a chain of branches ends where one without a
condition does. -/
theorem Agrees.arms_succ {before : List Node} {outer : List OpenBlock} {opened : Nat}
    {done : List (Arm Node)} {test : Option Expr} {line : Nat} (offset : Nat)
    (hs : s.Chained before outer opened done test line) (hnodes : s.nodes = [])
    (hfuel : 3 * ss.length + 2 ≤ fuel + 1) :
    ClosesChain limit s before outer done ss (Descent.arms limit (fuel + 1) test line opened
      s.inPart s.enclosing.length (cursorAt s.line offset ss)) := by
  have hfits : Enclosure.conditional.Fits s.enclosing := by
    cases hs with
    | branch h => rw [h]; trivial
    | otherwise h => rw [h]; trivial
  have hchildren := h.statements .conditional s offset ss hfits (by omega)
  rw [Descent.arms]
  generalize Descent.statements limit fuel .conditional s.inPart s.enclosing.length
    (cursorAt s.line offset ss) = r at hchildren ⊢
  cases hchildren with
  | error he => exact .error he
  | @ended all last c hgains _ hfinish =>
    refine .error (hfinish.trans ?_)
    rw [finish, hgains.enclosing]
    cases hs with
    | branch h => rw [h]; rfl
    | otherwise h => rw [h]; rfl
  | @terminated all t us rest segment last offset' hused hgains hdefines ht hafter =>
    have hreverse : last.nodes.reverse = allNodes all := by
      rw [hgains.nodes, hnodes, List.append_nil, List.reverse_reverse]
    have henclosing := hgains.enclosing
    have hrest : 3 * rest.length + 2 ≤ fuel := by
      rw [hused, List.length_append, List.length_cons] at hfuel
      omega
    cases hs with
    | @branch earlier test line hbranch =>
      rw [hbranch] at henclosing
      cases t with
      | endPart => cases ht
      | elseIf test' line' =>
        obtain ⟨-, rfl⟩ := ht
        have hchained : Chained (last.leaving segment [] (.branch before
            (⟨test, line, allNodes all⟩ :: earlier) test' last.line opened :: outer)) before outer
            opened _ (some test') last.line := .branch rfl
        have harms := h.arms_past offset' hgains (by rw [hbranch]; rfl) hchained hrest
        rw [List.reverse_cons, List.map_append] at harms
        refine ClosesChain.cons harms hgains hdefines hused
          (hafter.trans (comesToAfter_of_apply ?_))
        rw [Terminator.apply, advance, henclosing, ← hreverse]
        rfl
      | otherwise line' =>
        obtain ⟨-, rfl⟩ := ht
        have hchained : Chained (last.leaving segment [] (.otherwise before earlier
            ⟨test, line, allNodes all⟩ opened :: outer)) before outer opened _ none last.line :=
          .otherwise rfl
        have harms := h.arms_past offset' hgains (by rw [hbranch]; rfl) hchained hrest
        refine ClosesChain.cons harms hgains hdefines hused
          (hafter.trans (comesToAfter_of_apply ?_))
        rw [Terminator.apply, NodeProgress.lastBranch, advance, henclosing, ← hreverse]
        rfl
      | endIf =>
        have hchain : chainArms (earlier.reverse.map Branch.arm ++
            armNodes [⟨some test, line, all⟩]) =
            [Branch.chain (Branch.node ⟨test, line, allNodes all⟩ []) earlier] :=
          Branch.chain_eq rfl earlier
        refine .arms (by rw [hused]; simp) (armDefinitions_cons hdefines rfl)
          (hgains.outside _ outer segment) (hafter.trans (comesToAfter_of_apply ?_))
        rw [Terminator.apply, closeBranches, advance, henclosing, hchain, ← hreverse]
        rfl
    | @otherwise earlier lastBranch line hotherwise =>
      rw [hotherwise] at henclosing
      cases t with
      | endPart => cases ht
      | elseIf test' line' =>
        obtain ⟨-, rfl⟩ := ht
        refine .error (hafter.trans (comesToAfter_of_apply_error ?_))
        rw [Terminator.apply, advance, henclosing]
      | otherwise line' =>
        obtain ⟨-, rfl⟩ := ht
        refine .error (hafter.trans (comesToAfter_of_apply_error ?_))
        rw [Terminator.apply, NodeProgress.lastBranch, advance, henclosing]
      | endIf =>
        have hchain : chainArms (earlier.reverse.map Branch.arm ++ [lastBranch.arm] ++
            armNodes [⟨none, line, all⟩]) =
            [Branch.chain (lastBranch.node (allNodes all)) earlier] := by
          rw [List.append_assoc]
          exact Branch.chain_eq rfl earlier
        have hdefinesArms : armDefinitions [⟨none, line, all⟩] =
            definitionsIn (chainArms (armNodes [⟨none, line, all⟩])) :=
          (List.append_nil _).trans hdefines
        refine .arms (by rw [hused]; simp) hdefinesArms (hgains.outside _ outer segment)
          (hafter.trans (comesToAfter_of_apply ?_))
        rw [Terminator.apply, closeBranches, advance, henclosing, hchain, ← hreverse]
        rfl

end

/-- A directive that requires an expression fails as that does. -/
theorem Advances.of_argument {block : Enclosure} {segment : Segment} {name : Text}
    {expression : Option Text} {opens : Expr → Except Cause NodeProgress}
    {continues : Expr → Attempt Failure (Contribution × Cursor)}
    (h : s.comesTo limit (segment :: ss) = comesToFrom limit s.line ss
      (match argument name expression with
        | .error cause => .error cause
        | .ok e => opens e))
    (hok : ∀ e, s.comesTo limit (segment :: ss) = comesToFrom limit s.line ss (opens e) →
      Advances limit block s segment ss (continues e)) :
    Advances limit block s segment ss
      (Attempt.andThen (some ((argument name expression).mapError (⟨·, s.line⟩))) continues) := by
  cases hargument : argument name expression with
  | error cause =>
    rw [hargument] at h
    exact .error h
  | ok e =>
    rw [hargument] at h
    exact hok e h

/-- A statement of one passage. -/
theorem Advances.single {block : Enclosure} {segment : Segment} {a : Statement} {n : Node}
    {offset : Nat} (ha : a.nodes = [n]) (hdefines : a.definitions = n.definitions)
    (heq : s.comesTo limit (segment :: ss) =
      (s.leaving segment (n :: s.nodes) s.enclosing).comesTo limit ss) :
    Advances limit block s segment ss
      (some (.ok (.statement a, cursorAt (s.line + segment.raw.newlines) offset ss))) := by
  have hsegment := Gains.single s n segment
  rw [← ha] at hsegment
  refine .statement (List.nil_append ss).symm hsegment ?_ heq
  rw [hdefines, ha, definitionsIn, definitionsIn, List.append_nil]

theorem length_passagesOf (line offset : Nat) (ss : List Segment) :
    (passagesOf line offset ss).length = ss.length := by
  induction ss generalizing line offset with
  | nil => rfl
  | cons s ss ih => rw [passagesOf, List.length_cons, ih, List.length_cons]

theorem raw_take_passagesOf (n line offset : Nat) (ss : List Segment) :
    ((passagesOf line offset ss).take n).flatMap Passage.raw = source (ss.take n) := by
  induction ss generalizing n line offset with
  | nil =>
    rw [passagesOf, List.take_nil, List.take_nil]
    rfl
  | cons s ss ih =>
    cases n with
    | zero => rfl
    | succ n =>
      rw [passagesOf, List.take_succ_cons, List.take_succ_cons, List.flatMap_cons, raw_passage,
        source_cons, ih]

theorem sourceTo_eq {line offset line' offset' : Nat} {used rest : List Segment}
    {segment : Segment} (hss : ss = used ++ segment :: rest) :
    (cursorAt line offset ss).sourceTo (cursorAt line' offset' rest) = source used := by
  have hlength : ss.length - rest.length - 1 = used.length := by
    rw [hss, List.length_append, List.length_cons]
    omega
  rw [Cursor.sourceTo, cursorAt, cursorAt, length_passagesOf, length_passagesOf, hlength,
    raw_take_passagesOf, hss, List.take_left]

section

variable {fuel : Nat} (h : Agrees limit fuel)
include h

/-- The body of a part is the source between its directive and the one that closes it. -/
theorem Agrees.part_succ {block : Enclosure} {segment : Segment} {name : Expr} (offset : Nat)
    (hinPart : s.inPart = false) (hfuel : 3 * ss.length + 1 ≤ fuel)
    (hopen : s.comesTo limit (segment :: ss) = comesTo limit
      ⟨s.line + segment.raw.newlines, [], .part s.nodes name s.line
        (s.line + segment.raw.newlines) :: s.enclosing, [], true⟩ ss) :
    Advances limit block s segment ss
      ((Descent.statements limit fuel .part true (s.enclosing.length + 1)
        (cursorAt (s.line + segment.raw.newlines) offset ss)).andThen fun
        | (children, some .endPart, last) =>
          let body := (cursorAt (s.line + segment.raw.newlines) offset ss).sourceTo last
          some (.ok (.statement (.part name body children s.line
            (s.line + segment.raw.newlines)), last))
        | _ => some (.error ⟨.unclosed .part, s.line⟩)) := by
  have hchildren := h.statements .part ⟨s.line + segment.raw.newlines, [], .part s.nodes name s.line
    (s.line + segment.raw.newlines) :: s.enclosing, [], true⟩ offset ss trivial hfuel
  rw [List.length_cons] at hchildren
  generalize Descent.statements limit fuel .part true (s.enclosing.length + 1)
    (cursorAt (s.line + segment.raw.newlines) offset ss) = r at hchildren ⊢
  cases hchildren with
  | error he => exact .error (hopen.trans he)
  | @ended all last c hgains _ hfinish =>
    refine .error (hopen.trans (hfinish.trans ?_))
    rw [finish, hgains.enclosing]
    rfl
  | @terminated all t us rest closing last offset' hused hgains _ ht hafter =>
    cases t with
    | elseIf test line => cases ht.1
    | otherwise line => cases ht.1
    | endIf => cases ht
    | endPart =>
      have hbody : (cursorAt (s.line + segment.raw.newlines) offset ss).sourceTo
          (cursorAt (last.line + closing.raw.newlines) offset' rest) = source us :=
        sourceTo_eq hused
      have hkept : last.body.reverse = us := by
        rw [hgains.body rfl, List.append_nil, List.reverse_reverse]
      have hnodes : last.nodes.reverse = allNodes all := by
        rw [hgains.nodes, List.append_nil, List.reverse_reverse]
      have henclosing : last.enclosing = .part s.nodes name s.line
          (s.line + segment.raw.newlines) :: s.enclosing := hgains.enclosing
      have happly := apply_endPart henclosing closing (last.line + closing.raw.newlines)
      rw [hkept, hnodes] at happly
      rw [comesToAfter, happly] at hafter
      rw [Attempt.ok_andThen]
      dsimp only
      rw [hbody]
      have hss : ss = (us ++ [closing]) ++ rest := by
        rw [hused, List.append_assoc, List.singleton_append]
      refine .statement hss ?_ rfl (hopen.trans hafter)
      exact {
        line := by
          have hline : last.line = s.line + segment.raw.newlines + Text.newlines (source us) :=
            hgains.line
          dsimp only
          rw [hline, source_cons, source_append, source_singleton, Text.newlines_append,
            Text.newlines_append]
          omega
        nodes := rfl
        enclosing := rfl
        inPart := hinPart.symm
        body := fun hs => absurd hs (by rw [hinPart]; exact Bool.false_ne_true) }

/-- A condition is the chain of its branches. -/
theorem Agrees.ifThen_succ {block : Enclosure} {segment : Segment} {test : Expr} (offset : Nat)
    (hfuel : 3 * ss.length + 2 ≤ fuel)
    (hopen : s.comesTo limit (segment :: ss) = comesTo limit
      (s.leaving segment [] (.branch s.nodes [] test s.line s.line :: s.enclosing)) ss) :
    Advances limit block s segment ss
      ((Descent.arms limit fuel (some test) s.line s.line s.inPart (s.enclosing.length + 1)
        (cursorAt (s.line + segment.raw.newlines) offset ss)).andThen fun (all, last) =>
          some (.ok (.statement (.conditional all), last))) := by
  have hchained : Chained (s.leaving segment [] (.branch s.nodes [] test s.line s.line ::
      s.enclosing)) s.nodes s.enclosing s.line (List.map Branch.arm [].reverse) (some test)
      s.line := .branch rfl
  have harms := h.arms _ s.nodes s.enclosing s.line _ _ s.line offset ss hchained rfl hfuel
  change ClosesChain limit _ s.nodes s.enclosing [] ss (Descent.arms limit fuel (some test) s.line
    s.line s.inPart (s.enclosing.length + 1) (cursorAt (s.line + segment.raw.newlines) offset ss))
    at harms
  generalize Descent.arms limit fuel (some test) s.line s.line s.inPart (s.enclosing.length + 1)
    (cursorAt (s.line + segment.raw.newlines) offset ss) = r at harms ⊢
  cases harms with
  | error he => exact .error (hopen.trans he)
  | arms hss hdefines hgains heq =>
    have hsegment : s.Gains [] [segment] (s.leaving segment s.nodes s.enclosing) :=
      ⟨by rw [source_singleton]; rfl, rfl, rfl, rfl, fun _ => rfl⟩
    refine .statement hss ?_ ?_ (hopen.trans heq)
    · rw [Statement.nodes]
      exact hsegment.trans hgains
    · rw [Statement.definitions, Statement.nodes, hdefines]

theorem Agrees.passage_succ {block : Enclosure} (offset : Nat) (segment : Segment)
    (hblock : block.Fits s.enclosing) (hfuel : 3 * ss.length + 3 ≤ fuel + 1) :
    Advances limit block s segment ss (Descent.passage limit (fuel + 1) block s.inPart
      s.enclosing.length s.line (segment.passage s.line offset)
      (cursorAt (s.line + segment.raw.newlines) (offset + segment.raw.byteSize) ss)) := by
  have hverbatim (hsegment : segment.isDirective = false) : Advances limit block s segment ss
      (some (.ok (.statement (.text segment.raw s.line), cursorAt (s.line + segment.raw.newlines)
        (offset + segment.raw.byteSize) ss))) :=
    .single rfl rfl (comesTo_of_verbatim hsegment)
  cases segment with
  | text t =>
    rw [Segment.passage, Descent.passage]
    · exact hverbatim rfl
    · exact fun _ _ _ _ h => Passage.noConfusion h
  | escapedOpening opening =>
    rw [Segment.passage, Descent.passage]
    · exact hverbatim rfl
    · exact fun _ _ _ _ h => Passage.noConfusion h
  | tag kind opening body closing =>
    rw [Segment.passage, Descent.passage]
    · exact hverbatim rfl
    · exact fun _ _ _ _ h => Passage.noConfusion h
  | directive opening lead name argument closing =>
    rw [Segment.passage, Descent.passage]
    have hdirective : s.comesTo limit (.directive opening lead name argument closing :: ss) = _ :=
      comesTo_of_directive opening lead name argument closing
    generalize Segment.directive opening lead name argument closing = segment
      at hdirective hverbatim ⊢
    generalize Segment.expression? argument = expression at hdirective ⊢
    rw [atDirective] at hdirective
    rw [Descent.argument_eq]
    have hfits : block.Fits (s.leaving segment s.nodes s.enclosing).enclosing := hblock
    cases hname : Keyword.ofName? name with
    | none =>
      rw [hname] at hdirective
      exact .error hdirective
    | some k =>
      rw [hname] at hdirective
      cases k with
      | part =>
        have hinPart : (s.leaving segment s.nodes s.enclosing).inPart = s.inPart := rfl
        dsimp only at hdirective ⊢
        rw [hinPart] at hdirective
        split
        next htrue =>
          rw [if_pos htrue] at hdirective
          exact .error hdirective
        next hfalse =>
          rw [if_neg hfalse] at hdirective
          refine .of_argument hdirective fun part hpart => ?_
          rw [openPart, push_leaving] at hpart
          split
          next hfull =>
            rw [if_pos hfull] at hpart
            exact .error hpart
          next hfree =>
            rw [if_neg hfree] at hpart
            exact h.part_succ _ (Bool.eq_false_iff.mpr hfalse) (by omega) hpart
      | showPart =>
        cases hargument : NodeProgress.argument name expression with
        | error cause =>
          rw [hargument] at hdirective
          exact .error hdirective
        | ok shown =>
          rw [hargument] at hdirective
          exact .single rfl rfl hdirective
      | parent =>
        dsimp only at hdirective ⊢
        cases expression with
        | none => exact .single rfl rfl hdirective
        | some x =>
          rw [Option.all_some] at hdirective
          rw [Option.any_some, bne]
          cases hx : x == "()".toList with
          | true =>
            rw [hx] at hdirective
            exact .single rfl rfl hdirective
          | false =>
            rw [hx] at hdirective
            exact .error hdirective
      | ifThen =>
        refine .of_argument hdirective fun test htest => ?_
        rw [push_leaving] at htest
        split
        next hfull =>
          rw [if_pos hfull] at htest
          exact .error htest
        next hfree =>
          rw [if_neg hfree] at htest
          exact h.ifThen_succ _ (by omega) htest
      | endPart =>
        dsimp only at hdirective ⊢
        split
        next hpart =>
          obtain rfl := Keyword.eq_spelling_of_ofName? hname
          exact .terminator hpart hdirective
        next hne =>
          rw [closePart_of_fits hfits name hne] at hdirective
          exact .error hdirective
      | elseIf =>
        dsimp only at hdirective ⊢
        split
        next hconditional =>
          subst hconditional
          rw [nextBranch_eq hfits] at hdirective
          exact .of_argument hdirective fun test htest => .terminator ⟨rfl, rfl⟩ htest
        next hne =>
          rw [nextBranch_of_fits hfits name hne] at hdirective
          exact .error hdirective
      | otherwise =>
        dsimp only at hdirective ⊢
        split
        next hconditional =>
          obtain rfl := Keyword.eq_spelling_of_ofName? hname
          exact .terminator ⟨hconditional, rfl⟩ hdirective
        next hne =>
          rw [lastBranch_of_fits hfits name hne] at hdirective
          exact .error hdirective
      | endIf =>
        dsimp only at hdirective ⊢
        split
        next hconditional =>
          obtain rfl := Keyword.eq_spelling_of_ofName? hname
          exact .terminator hconditional hdirective
        next hne =>
          rw [closeBranches_of_fits hfits name hne] at hdirective
          exact .error hdirective

end

theorem agrees (limit fuel : Nat) : Agrees limit fuel := by
  induction fuel with
  | zero =>
    -- Without fuel nothing is promised.
    constructor <;> intros <;> omega
  | succ fuel ih =>
    exact {
      statements := fun _ _ offset _ hblock hfuel => ih.statements_succ offset hblock hfuel
      passage := fun _ _ offset segment _ hblock hfuel =>
        ih.passage_succ offset segment hblock hfuel
      arms := fun _ _ _ _ _ _ _ offset _ hs hnodes hfuel =>
        ih.arms_succ offset hs hnodes hfuel }

end NodeProgress

/-- Recursive descent over the passages of segments ends: with statements for their nodes, which
define the same parts in the same order, or with the same error. -/
theorem parseStatements_eq (limit : Nat) (inPart : Bool) (offset : Nat) (ss : List Segment) :
    ∃ r, parseStatements limit inPart (passagesOf 1 offset ss) = some r ∧
      r.map Statement.allNodes = parseNodes limit inPart ss ∧
      r.map Statement.allDefinitions = (parseNodes limit inPart ss).map definitionsIn := by
  have hagrees := (NodeProgress.agrees limit (3 * ss.length + 1)).statements .root (.start inPart)
    offset ss trivial (Nat.le_refl _)
  have hparse : parseNodes limit inPart ss = (NodeProgress.start inPart).comesTo limit ss := rfl
  have hlength : (passagesOf 1 offset ss).length = ss.length :=
    NodeProgress.length_passagesOf 1 offset ss
  change NodeProgress.Follows limit .root _ ss (Descent.statements limit (3 * ss.length + 1) .root
    inPart 0 ⟨1, passagesOf 1 offset ss⟩) at hagrees
  rw [parseStatements, hlength, hparse]
  generalize Descent.statements limit (3 * ss.length + 1) .root inPart 0
    ⟨1, passagesOf 1 offset ss⟩ = r at hagrees ⊢
  cases hagrees with
  | error he =>
    rw [he]
    exact ⟨_, rfl, rfl, rfl⟩
  | @ended all last c hgains hdefines hfinish =>
    have hnodes : last.nodes.reverse = Statement.allNodes all := by
      rw [hgains.nodes]
      show ((Statement.allNodes all).reverse ++ []).reverse = _
      rw [List.append_nil, List.reverse_reverse]
    have hend : last.finish = .ok (Statement.allNodes all) := by
      rw [NodeProgress.finish, hgains.enclosing, ← hnodes]
      rfl
    rw [hfinish, hend]
    exact ⟨_, rfl, rfl, congrArg Except.ok hdefines⟩
  | @terminated all t used rest segment last offset' hused hgains hdefines ht hafter =>
    cases t with
    | endPart => cases ht
    | elseIf test line => cases ht.1
    | otherwise line => cases ht.1
    | endIf => cases ht

end Stencil
