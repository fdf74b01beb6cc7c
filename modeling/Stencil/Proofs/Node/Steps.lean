/- What each segment makes of the nodes that were read before it. -/
import Stencil.Proofs.Node.Layout

namespace Stencil

namespace Keyword

theorem ofName?_spelling (k : Keyword) : ofName? k.spelling.toList = some k := by
  cases k <;> decide

theorem eq_spelling_of_ofName? {name : Text} {k : Keyword} (h : ofName? name = some k) :
    name = k.spelling.toList := by
  have hname := List.find?_some h
  exact (beq_iff_eq.mp hname).symm

end Keyword

theorem Segment.directs_of_ofName? {opening lead name argument closing : Text} {k : Keyword}
    (h : Keyword.ofName? name = some k) :
    Segment.Directs k (Segment.expression? argument)
      (.directive opening lead name argument closing) :=
  Keyword.eq_spelling_of_ofName? h ▸ .mk opening lead argument closing

namespace NodeProgress

variable {limit : Nat} {s next : NodeProgress} {segment : Segment}

def past (s : NodeProgress) (segment : Segment) : NodeProgress :=
  s.advance segment (s.line + segment.raw.newlines)

theorem argument_eq_ok_iff {name : Text} {x : Option Text} {e : Expr} :
    argument name x = .ok e ↔ ∃ body, x = some body ∧ Expr.parse body = .ok e := by
  cases x with
  | none => simp [argument]
  | some body =>
    rw [argument, Outcome.mapError_eq_ok_iff]
    exact ⟨fun h => ⟨body, rfl, h⟩, fun ⟨_, hbody, h⟩ => Option.some.inj hbody ▸ h⟩

theorem step_of_directs {k : Keyword} {x : Option Text} (h : Segment.Directs k x segment) :
    s.step limit segment =
      ((s.past segment).atDirective limit s.line (s.past segment).line k.spelling.toList x).mapError
        (⟨·, s.line⟩) := by
  obtain ⟨opening, lead, argument, closing⟩ := h
  unfold step past
  dsimp only [advance]
  split
  next after hafter =>
    rw [hafter]
    rfl
  next cause hcause =>
    rw [hcause]
    rfl

/-- A step that adds a node to the block at hand, or opens another one. -/
inductive Takes (limit : Nat) (s : NodeProgress) (segment : Segment) : NodeProgress → Prop
  | text : segment.isDirective = false →
      Takes limit s segment ((s.past segment).add (.text segment.raw s.line))
  | showPart {name} : segment.Requires .showPart name →
      Takes limit s segment ((s.past segment).add (.showPart name s.line))
  | showParent {x} : Segment.Directs .parent x segment → x = none ∨ x = some "()".toList →
      Takes limit s segment ((s.past segment).add (.showParent s.line))
  | part {name} : segment.Requires .part name → s.inPart = false → s.enclosing.length < limit →
      Takes limit s segment
        { line := (s.past segment).line
          nodes := []
          enclosing := .part s.nodes name s.line (s.past segment).line :: s.enclosing
          body := []
          inPart := true }
  | ifThen {test} : segment.Requires .ifThen test → s.enclosing.length < limit →
      Takes limit s segment
        { line := (s.past segment).line
          nodes := []
          enclosing := .branch s.nodes [] test s.line s.line :: s.enclosing
          body := segment :: s.body
          inPart := s.inPart }

/-- A step that ends the block at hand, or a branch of it. -/
inductive Closes (s : NodeProgress) (segment : Segment) : NodeProgress → Prop
  | endPart {ahead name opened bodyLine rest} : segment.Names .endPart →
      s.enclosing = .part ahead name opened bodyLine :: rest →
      Closes s segment
        { line := (s.past segment).line
          nodes := .part name (source s.body.reverse) s.nodes.reverse opened bodyLine :: ahead
          enclosing := rest
          body := segment :: s.body
          inPart := false }
  | elseIf {after ahead earlier test first opened rest} : segment.Requires .elseIf after →
      s.enclosing = .branch ahead earlier test first opened :: rest →
      Closes s segment
        { line := (s.past segment).line
          nodes := []
          enclosing :=
            .branch ahead (⟨test, first, s.nodes.reverse⟩ :: earlier) after s.line opened :: rest
          body := segment :: s.body
          inPart := s.inPart }
  | otherwise {ahead earlier test first opened rest} : segment.Names .otherwise →
      s.enclosing = .branch ahead earlier test first opened :: rest →
      Closes s segment
        { line := (s.past segment).line
          nodes := []
          enclosing := .otherwise ahead earlier ⟨test, first, s.nodes.reverse⟩ opened :: rest
          body := segment :: s.body
          inPart := s.inPart }
  | endBranch {ahead earlier test first opened rest} : segment.Names .endIf →
      s.enclosing = .branch ahead earlier test first opened :: rest →
      Closes s segment
        { line := (s.past segment).line
          nodes := Branch.chain (.conditional test s.nodes.reverse [] first) earlier :: ahead
          enclosing := rest
          body := segment :: s.body
          inPart := s.inPart }
  | endOtherwise {ahead earlier last opened rest} : segment.Names .endIf →
      s.enclosing = .otherwise ahead earlier last opened :: rest →
      Closes s segment
        { line := (s.past segment).line
          nodes := Branch.chain (last.node s.nodes.reverse) earlier :: ahead
          enclosing := rest
          body := segment :: s.body
          inPart := s.inPart }

theorem Closes.enclosing_ne_nil (h : Closes s segment next) : s.enclosing ≠ [] := by
  cases h <;> simp [*]

theorem requires_of_argument {k : Keyword} {x : Option Text} {name : Text} {e : Expr}
    (hk : Segment.Directs k x segment) (he : argument name x = .ok e) : segment.Requires k e := by
  obtain ⟨body, rfl, hparse⟩ := argument_eq_ok_iff.mp he
  exact ⟨body, hk, hparse⟩

theorem takes_or_closes_of_atDirective {k : Keyword} {x : Option Text}
    (hk : Segment.Directs k x segment)
    (h : (s.past segment).atDirective limit s.line (s.past segment).line k.spelling.toList x =
      .ok next) : Takes limit s segment next ∨ Closes s segment next := by
  rw [atDirective, Keyword.ofName?_spelling] at h
  cases k with
  | part =>
    dsimp only at h
    split at h
    next => cases h
    next hpart =>
      split at h
      next => cases h
      next e he =>
        obtain ⟨mid, hpush, rfl⟩ := Outcome.map_eq_ok_iff.mp h
        unfold push at hpush
        split at hpush
        next hroom =>
          cases hpush
          exact .inl (.part (requires_of_argument hk he) (Bool.eq_false_iff.mpr hpart) hroom)
        next => cases hpush
  | endPart =>
    dsimp only at h
    unfold closePart at h
    split at h
    next ahead name opened bodyLine rest henclosing =>
      cases h
      exact .inr (.endPart ⟨x, hk⟩ henclosing)
    next => cases h
  | showPart =>
    obtain ⟨e, he, rfl⟩ := Outcome.map_eq_ok_iff.mp h
    exact .inl (.showPart (requires_of_argument hk he))
  | parent =>
    dsimp only at h
    split at h
    next hx =>
      cases h
      exact .inl (.showParent hk (by cases x <;> simp_all))
    next => cases h
  | ifThen =>
    dsimp only at h
    split at h
    next => cases h
    next e he =>
      unfold push at h
      split at h
      next hroom =>
        cases h
        exact .inl (.ifThen (requires_of_argument hk he) hroom)
      next => cases h
  | elseIf =>
    dsimp only at h
    unfold nextBranch at h
    split at h
    next henclosing =>
      obtain ⟨e, he, rfl⟩ := Outcome.map_eq_ok_iff.mp h
      exact .inr (.elseIf (requires_of_argument hk he) henclosing)
    next => split at h <;> cases h
    next => cases h
  | otherwise =>
    dsimp only at h
    unfold lastBranch at h
    split at h
    next henclosing =>
      cases h
      exact .inr (.otherwise ⟨x, hk⟩ henclosing)
    next => cases h
    next => cases h
  | endIf =>
    dsimp only at h
    unfold closeBranches at h
    split at h
    next henclosing =>
      cases h
      exact .inr (.endBranch ⟨x, hk⟩ henclosing)
    next henclosing =>
      cases h
      exact .inr (.endOtherwise ⟨x, hk⟩ henclosing)
    next => cases h

theorem argument_of_requires {k : Keyword} {e : Expr} (h : segment.Requires k e) :
    ∃ x, Segment.Directs k x segment ∧ argument k.spelling.toList x = .ok e := by
  obtain ⟨body, hk, hparse⟩ := h
  exact ⟨some body, hk, argument_eq_ok_iff.mpr ⟨body, rfl, hparse⟩⟩

theorem step_of_atDirective {k : Keyword} {x : Option Text} (hk : Segment.Directs k x segment)
    (h : (s.past segment).atDirective limit s.line (s.past segment).line k.spelling.toList x =
      .ok next) : s.step limit segment = .ok next := by
  rw [step_of_directs hk, h]
  rfl

theorem Takes.step (h : Takes limit s segment next) : s.step limit segment = .ok next := by
  cases h with
  | text h => cases segment <;> first | rfl | cases h
  | showPart h =>
    obtain ⟨x, hk, he⟩ := argument_of_requires h
    refine step_of_atDirective hk ?_
    rw [atDirective, Keyword.ofName?_spelling]
    simp only [he, Except.map]
  | showParent hk hx =>
    refine step_of_atDirective hk ?_
    rw [atDirective, Keyword.ofName?_spelling]
    rcases hx with rfl | rfl <;> rfl
  | part h hpart hroom =>
    obtain ⟨x, hk, he⟩ := argument_of_requires h
    refine step_of_atDirective hk ?_
    have hopen : (s.past segment).enclosing.length < limit := hroom
    have hfree : (s.past segment).inPart = false := hpart
    rw [atDirective, Keyword.ofName?_spelling]
    simp only [hfree, he, openPart, push, hopen, if_true, Except.map]
    rfl
  | ifThen h hroom =>
    obtain ⟨x, hk, he⟩ := argument_of_requires h
    refine step_of_atDirective hk ?_
    have hopen : (s.past segment).enclosing.length < limit := hroom
    rw [atDirective, Keyword.ofName?_spelling]
    simp only [he, push, hopen, if_true]
    rfl

theorem Closes.step (h : Closes s segment next) (limit : Nat) :
    s.step limit segment = .ok next := by
  cases h with
  | endPart h henclosing =>
    obtain ⟨x, hk⟩ := h
    refine step_of_atDirective hk ?_
    have htop : (s.past segment).enclosing = _ := henclosing
    rw [atDirective, Keyword.ofName?_spelling]
    simp only [closePart, htop]
    rfl
  | elseIf h henclosing =>
    obtain ⟨x, hk, he⟩ := argument_of_requires h
    refine step_of_atDirective hk ?_
    have htop : (s.past segment).enclosing = _ := henclosing
    rw [atDirective, Keyword.ofName?_spelling]
    simp only [nextBranch, htop, he, Except.map]
    rfl
  | otherwise h henclosing =>
    obtain ⟨x, hk⟩ := h
    refine step_of_atDirective hk ?_
    have htop : (s.past segment).enclosing = _ := henclosing
    rw [atDirective, Keyword.ofName?_spelling]
    simp only [lastBranch, htop]
    rfl
  | endBranch h henclosing =>
    obtain ⟨x, hk⟩ := h
    refine step_of_atDirective hk ?_
    have htop : (s.past segment).enclosing = _ := henclosing
    rw [atDirective, Keyword.ofName?_spelling]
    simp only [closeBranches, htop]
    rfl
  | endOtherwise h henclosing =>
    obtain ⟨x, hk⟩ := h
    refine step_of_atDirective hk ?_
    have htop : (s.past segment).enclosing = _ := henclosing
    rw [atDirective, Keyword.ofName?_spelling]
    simp only [closeBranches, htop]
    rfl

/-- Nothing else is accepted. -/
theorem step_eq_ok_iff :
    s.step limit segment = .ok next ↔ Takes limit s segment next ∨ Closes s segment next := by
  refine ⟨fun h => ?_, fun h => h.elim Takes.step (·.step limit)⟩
  cases segment with
  | directive opening lead name argument closing =>
    cases hname : Keyword.ofName? name with
    | none => simp [step, atDirective, hname] at h
    | some k =>
      have hk : Segment.Directs k (Segment.expression? argument)
          (.directive opening lead name argument closing) := Segment.directs_of_ofName? hname
      rw [step_of_directs hk] at h
      exact takes_or_closes_of_atDirective hk (Outcome.mapError_eq_ok_iff.mp h)
  | _ =>
    cases h
    exact .inl (.text rfl)

end NodeProgress

end Stencil
