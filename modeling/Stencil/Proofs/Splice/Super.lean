/- Bodies that go on with the ones that they hide, up the chain of parents. -/
import Mathlib.Data.List.Forall2
import Stencil.Proofs.Splice.Drawing
import Stencil.Proofs.Splice.Rendering

namespace Stencil

/-- The bodies that layers have for a part, nearest first. -/
def bodiesFor (name : Text) (ls : List Layer) : List Text := ls.filterMap (·.parts.get? name)

theorem bodiesFor_cons_of_none {name : Text} {l : Layer} (h : l.parts.get? name = none)
    (ls : List Layer) : bodiesFor name (l :: ls) = bodiesFor name ls :=
  List.filterMap_cons_none h

theorem bodiesFor_cons_of_some {name body : Text} {l : Layer} (h : l.parts.get? name = some body)
    (ls : List Layer) : bodiesFor name (l :: ls) = body :: bodiesFor name ls :=
  List.filterMap_cons_some h

theorem findPart?_eq_none_of_bodiesFor {name : Text} {ls : List Layer}
    (h : bodiesFor name ls = []) : findPart? name ls = none := by
  induction ls with
  | nil => rfl
  | cons l ls ih =>
    cases hown : l.parts.get? name with
    | some body =>
      rw [bodiesFor_cons_of_some hown] at h
      cases h
    | none =>
      rw [bodiesFor_cons_of_none hown] at h
      rw [findPart?, hown, ih h]
      rfl

/-- The nearest body is found, and the layers above it have the others. -/
theorem exists_findPart?_of_bodiesFor {name body : Text} {bodies : List Text} {ls : List Layer}
    (h : bodiesFor name ls = body :: bodies) :
    ∃ level, findPart? name ls = some ⟨level, body⟩ ∧
      bodiesFor name (ls.drop (level + 1)) = bodies := by
  induction ls with
  | nil => cases h
  | cons l ls ih =>
    cases hown : l.parts.get? name with
    | some own =>
      rw [bodiesFor_cons_of_some hown] at h
      cases h
      exact ⟨0, by rw [findPart?, hown], rfl⟩
    | none =>
      rw [bodiesFor_cons_of_none hown] at h
      obtain ⟨level, hfound, habove⟩ := ih h
      exact ⟨level + 1, by rw [findPart?, hown, hfound]; rfl, habove⟩

namespace Template

theorem inheritedPart?_eq_none_of_bodiesFor {t : Template} {level : Nat} {name : Text}
    (h : bodiesFor name (t.layers.drop (level + 1)) = []) : t.inheritedPart? level name = none := by
  rw [inheritedPart?, findPart?_eq_none_of_bodiesFor h]
  rfl

theorem exists_inheritedPart?_of_bodiesFor {t : Template} {level : Nat} {name body : Text}
    {bodies : List Text} (h : bodiesFor name (t.layers.drop (level + 1)) = body :: bodies) :
    ∃ above, t.inheritedPart? level name = some ⟨above, body⟩ ∧
      bodiesFor name (t.layers.drop (above + 1)) = bodies := by
  obtain ⟨found, hfound, habove⟩ := exists_findPart?_of_bodiesFor h
  refine ⟨found + level + 1, by rw [inheritedPart?, hfound]; rfl, ?_⟩
  rw [List.drop_drop] at habove
  rwa [show found + level + 1 + 1 = level + 1 + (found + 1) by omega]

end Template

/-- A `parent` with no argument, or with nothing in its brackets. -/
def Segment.CallsParent (s : Segment) : Prop :=
  ∃ x, Segment.Directs .parent x s ∧ (x = none ∨ x = some "()".toList)

/-- No directive stands among the segments but `parent`. -/
def OnlyCallsParent (ss : List Segment) : Prop :=
  ∀ s ∈ ss, s.isDirective = false ∨ s.CallsParent

/-- The segments of the bodies that the template and its parents have for a part, nearest first,
which hold no directive but `parent`. The template cuts them all. -/
def Template.HasBodies (t : Template) (name : Text) (bodies : List (List Segment)) : Prop :=
  List.Forall₂ (fun body ss => segments t.own.delimiters body = .ok ss ∧ OnlyCallsParent ss)
    (bodiesFor name t.layers) bodies

/-- The segments of a body whose directives stand for `inner`. -/
def fillDirectives (inner : Text) (ss : List Segment) : Text :=
  ss.flatMap fun s => if s.isDirective then inner else s.raw

/-- The text of the nearest body, where each `parent` stands for that of the bodies behind it. -/
def superText : List (List Segment) → Text
  | [] => []
  | ss :: rest => fillDirectives (superText rest) ss

/-- What comes of the same when at most `room` bodies can be put into each other. -/
def superOutcome (name : Text) (limit : Nat) : Nat → List (List Segment) → Except Cause Text
  | _, [] => .error (.noInheritedPart name)
  | 0, _ :: _ => .error (.partTooDeep name limit)
  | room + 1, ss :: rest =>
    if ss.any Segment.isDirective then
      (superOutcome name limit room rest).map fun inner => fillDirectives inner ss
    else .ok (source ss)

theorem fillDirectives_of_verbatim {ss : List Segment} (h : ss.any Segment.isDirective = false)
    (inner : Text) : fillDirectives inner ss = source ss := by
  induction ss with
  | nil => rfl
  | cons s ss ih =>
    rw [List.any_cons, Bool.or_eq_false_iff] at h
    rw [fillDirectives, List.flatMap_cons, h.1, source_cons, ← ih h.2]
    rfl

namespace Setting

/-- A body with no directive but `parent` is drawn around what its `parent`s bring in. -/
theorem exists_items_of_onlyCallsParent (room : Nat) {ss : List Segment} (before : Text)
    (h : OnlyCallsParent ss) :
    ∃ ps, Items true room before ss ps ∧ ∀ (g : Setting) put part,
      g.drawNodes put part (PlacedNode.nodes ps) =
        if ss.any Segment.isDirective then
          (g.drawNode put part (.showParent 1)).map fun inner => fillDirectives inner ss
        else .ok (source ss) := by
  induction ss generalizing before with
  | nil => exact ⟨[], .nil, fun _ _ _ => rfl⟩
  | cons s ss ih =>
    obtain ⟨hs, hss⟩ := List.forall_mem_cons.mp h
    obtain ⟨ps, hps, hdraw⟩ := ih (before ++ s.raw) hss
    rcases hs with hs | ⟨x, hs, hx⟩
    · refine ⟨_, .text hs hps, fun g put part => ?_⟩
      have hfill : ∀ inner, fillDirectives inner (s :: ss) = s.raw ++ fillDirectives inner ss := by
        intro inner
        rw [fillDirectives, List.flatMap_cons, hs]
        rfl
      rw [PlacedNode.nodes, PlacedNode.node, drawNodes, drawNode, hdraw, List.any_cons, hs,
        Bool.false_or]
      split
      next => cases g.drawNode put part (.showParent 1) <;> simp [Except.map, Except.bind, hfill]
      next => rfl
    · refine ⟨_, .showParent hs hx hps, fun g put part => ?_⟩
      have hdirective : s.isDirective = true := by
        cases hs
        rfl
      have hfill : ∀ inner, fillDirectives inner (s :: ss) = inner ++ fillDirectives inner ss := by
        intro inner
        rw [fillDirectives, List.flatMap_cons, hdirective]
        rfl
      have hline : ∀ line, g.drawNode put part (.showParent line) =
        g.drawNode put part (.showParent 1) := fun _ => rfl
      rw [PlacedNode.nodes, PlacedNode.node, drawNodes, hline, hdraw, List.any_cons, hdirective,
        Bool.true_or, if_pos rfl]
      cases g.drawNode put part (.showParent 1) with
      | error cause => rfl
      | ok inner =>
        split
        next => simp [Except.map, Except.bind, hfill]
        next hverbatim =>
          have hrest := fillDirectives_of_verbatim (Bool.eq_false_iff.mpr hverbatim) inner
          simp [Except.map, Except.bind, hfill, hrest]

variable {g : Setting} {name : Text}

/-- Each `parent` brings in the next body that the chain has for the part, whatever layers without
one lie between. -/
theorem drawBody_eq_superOutcome {level : Nat} {body : Text} {ss : List Segment}
    {rest : List (List Segment)} (budget : Nat)
    (hbody : segments g.template.own.delimiters body = .ok ss ∧ OnlyCallsParent ss)
    (hrest : List.Forall₂ (fun body ss =>
        segments g.template.own.delimiters body = .ok ss ∧ OnlyCallsParent ss)
      (bodiesFor name (g.template.layers.drop (level + 1))) rest) :
    g.drawBody budget ⟨name, level⟩ body = superOutcome name g.limit budget (ss :: rest) := by
  induction budget generalizing level body ss rest with
  | zero => rfl
  | succ budget ih =>
    obtain ⟨hss, hcalls⟩ := hbody
    obtain ⟨ps, hps, hdraw⟩ := exists_items_of_onlyCallsParent g.limit [] hcalls
    have hparent : g.drawNode (g.drawBody budget) (some ⟨name, level⟩) (.showParent 1) =
        superOutcome name g.limit budget rest := by
      rw [drawNode, inherited]
      cases hbodies : bodiesFor name (g.template.layers.drop (level + 1)) with
      | nil =>
        rw [hbodies] at hrest
        cases hrest
        rw [Template.inheritedPart?_eq_none_of_bodiesFor hbodies]
        cases budget <;> rfl
      | cons next bodies =>
        rw [hbodies] at hrest
        obtain ⟨above, hfound, habove⟩ := Template.exists_inheritedPart?_of_bodiesFor hbodies
        cases hrest with
        | cons hnext hrest =>
          rw [hfound]
          rw [← habove] at hrest
          exact ih hnext hrest
    rw [drawBody, nodesOf_of_items hss hps]
    dsimp only
    rw [hdraw, hparent, superOutcome]

theorem drawNode_eq_superOutcome {e : Expr} {bodies : List (List Segment)}
    (hname : g.scope.nameOf e = .ok name) (hbodies : g.template.HasBodies name bodies)
    (hne : bodies ≠ []) (budget line : Nat) (part : Option ShownPart) :
    g.drawNode (g.drawBody budget) part (.showPart e line) =
      superOutcome name g.limit budget bodies := by
  unfold Template.HasBodies at hbodies
  cases hlayers : bodiesFor name g.template.layers with
  | nil =>
    rw [hlayers] at hbodies
    cases hbodies
    exact absurd rfl hne
  | cons body rest =>
    obtain ⟨level, hfound, habove⟩ := exists_findPart?_of_bodiesFor hlayers
    have hpart : g.template.part? name = some ⟨level, body⟩ := hfound
    rw [hlayers, ← habove] at hbodies
    cases hbodies with
    | cons hbody hrest =>
      rw [drawNode, hname]
      dsimp only
      rw [shown, hpart]
      exact drawBody_eq_superOutcome budget hbody hrest

end Setting

/-- Where each body but the last goes on with the next one, either there is room for them all and
the last one has to be complete, or the room runs out. -/
theorem superOutcome_eq {name : Text} {limit room : Nat} {bodies : List (List Segment)}
    {last : List Segment} (hcalls : ∀ ss ∈ bodies, ss.any Segment.isDirective = true) :
    superOutcome name limit room (bodies ++ [last]) =
      if room < bodies.length + 1 then .error (.partTooDeep name limit)
      else if last.any Segment.isDirective then .error (.noInheritedPart name)
      else .ok (superText (bodies ++ [last])) := by
  induction bodies generalizing room with
  | nil =>
    cases room with
    | zero => rfl
    | succ room =>
      have hroom : ¬ room + 1 < ([] : List (List Segment)).length + 1 := by
        rw [List.length_nil]
        omega
      rw [if_neg hroom, List.nil_append, superOutcome, superText]
      cases hlast : last.any Segment.isDirective with
      | true => cases room <;> rfl
      | false => exact congrArg Except.ok (fillDirectives_of_verbatim hlast _).symm
  | cons ss bodies ih =>
    cases room with
    | zero => rfl
    | succ room =>
      obtain ⟨hss, hrest⟩ := List.forall_mem_cons.mp hcalls
      simp only [List.cons_append, superOutcome, if_pos hss, ih hrest, List.length_cons,
        Nat.add_lt_add_iff_right]
      split
      next => rfl
      next =>
        split
        next => rfl
        next => rfl

section

variable {name : Text} {limit room : Nat} {bodies : List (List Segment)} {last : List Segment}

theorem superOutcome_eq_ok_iff (hcalls : ∀ ss ∈ bodies, ss.any Segment.isDirective = true)
    {t : Text} : superOutcome name limit room (bodies ++ [last]) = .ok t ↔
      (last.any Segment.isDirective = false ∧ bodies.length + 1 ≤ room) ∧
        superText (bodies ++ [last]) = t := by
  rw [superOutcome_eq hcalls]
  split
  next hroom => simp [Nat.not_le_of_lt hroom]
  next hroom =>
    split
    next hlast => simp [hlast]
    next hlast => simp [hlast, Nat.le_of_not_lt hroom]

theorem kind_of_superOutcome (hcalls : ∀ ss ∈ bodies, ss.any Segment.isDirective = true)
    {cause : Cause} (h : superOutcome name limit room (bodies ++ [last]) = .error cause) :
    cause.kind = if room < bodies.length + 1 then .recursionLimit else .undefinedPart := by
  rw [superOutcome_eq hcalls] at h
  split at h
  next hroom =>
    cases h
    exact (if_pos hroom).symm
  next hroom =>
    split at h
    next =>
      cases h
      exact (if_neg hroom).symm
    next => cases h

end

end Stencil
