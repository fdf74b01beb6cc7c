/- What has to succeed for directives to be carried out. -/
import Stencil.Proofs.Node.Parsing
import Stencil.Splice.Parts

namespace Stencil

namespace Rendering

variable {r : Rendering} {put : Inclusion → Except Failure Splice} {part : Option ShownPart}
  {origin : Origin} {s : Splice}

theorem renderNodes_cons_eq_ok_iff {n : Node} {ns : List Node} :
    renderNodes r put part origin (n :: ns) = .ok s ↔
      ∃ first rest, renderNode r put part origin n = .ok first ∧
        renderNodes r put part origin ns = .ok rest ∧ first ++ rest = s := by
  rw [renderNodes]
  cases renderNode r put part origin n with
  | error f => simp
  | ok first =>
    cases renderNodes r put part origin ns with
    | error f => simp
    | ok rest => simp

theorem renderNode_showPart_eq_ok_iff {e : Expr} {line : Nat} :
    renderNode r put part origin (.showPart e line) = .ok s ↔
      ∃ name i, r.scope.nameOf e = .ok name ∧ r.shown name (origin.line line) = .ok i ∧
        put i = .ok s := by
  rw [renderNode]
  cases r.scope.nameOf e with
  | error err => simp
  | ok name =>
    dsimp only
    cases hshown : r.shown name (origin.line line) with
    | error cause => simp [hshown]
    | ok i => simp [hshown]

theorem renderNode_showParent_eq_ok_iff {line : Nat} :
    renderNode r put part origin (.showParent line) = .ok s ↔
      ∃ i, r.inherited (origin.line line) part = .ok i ∧ put i = .ok s := by
  rw [renderNode]
  cases r.inherited (origin.line line) part with
  | error cause => simp
  | ok i => simp

theorem renderNode_conditional_eq_ok_iff {test : Expr} {yes no : List Node} {line : Nat} :
    renderNode r put part origin (.conditional test yes no line) = .ok s ↔
      ∃ v, r.scope.eval test = .ok v ∧
        renderNodes r put part origin (if v.isTruthy then yes else no) = .ok s := by
  rw [renderNode]
  cases r.scope.eval test with
  | error err => simp
  | ok v => cases hv : v.isTruthy <;> simp [hv]

theorem expand_eq_ok_iff {budget : Nat} {i : Inclusion} :
    expand r budget i = .ok s ↔
      ∃ b nodes, budget = b + 1 ∧
        nodesOf r.template.own.delimiters r.limit true i.body = .ok nodes ∧
        renderNodes r (expand r b) (some i.part) i.origin nodes = .ok s := by
  cases budget with
  | zero => simp [expand]
  | succ b =>
    rw [expand]
    cases nodesOf r.template.own.delimiters r.limit true i.body with
    | error f => simp
    | ok nodes => simp

theorem shown_eq_ok_iff {name : Text} {line : Nat} {i : Inclusion} :
    r.shown name line = .ok i ↔
      ∃ p, r.template.part? name = some p ∧
        i = ⟨⟨name, p.level⟩, p.body, r.originOf name p.level line, line⟩ := by
  unfold shown
  cases r.template.part? name with
  | none => simp
  | some p => simp [eq_comm]

theorem inherited_eq_ok_iff {line : Nat} {i : Inclusion} :
    r.inherited line part = .ok i ↔
      ∃ shown p, part = some shown ∧ r.template.inheritedPart? shown.level shown.name = some p ∧
        i = ⟨⟨shown.name, p.level⟩, p.body, .fixed line, line⟩ := by
  cases part with
  | none => simp [inherited]
  | some shown =>
    rw [inherited]
    cases hp : r.template.inheritedPart? shown.level shown.name with
    | none => simp [hp]
    | some p => simp [hp, eq_comm]

end Rendering

section Reading

variable {ds : DelimiterSet} {limit : Nat} {inPart : Bool} {t : Text} {ss : List Segment}
  {ns : List Node}

theorem nodesOf_of_segments (limit : Nat) (inPart : Bool) (h : segments ds t = .ok ss) :
    Rendering.nodesOf ds limit inPart t = parseNodes limit inPart ss := by
  rw [Rendering.nodesOf, h]

theorem exists_segments_of_nodesOf (h : Rendering.nodesOf ds limit inPart t = .ok ns) :
    ∃ ss, segments ds t = .ok ss ∧ parseNodes limit inPart ss = .ok ns := by
  rw [Rendering.nodesOf] at h
  split at h
  next => cases h
  next ss hss => exact ⟨ss, hss, h⟩

theorem nodesOf_of_items {ps : List PlacedNode} (hss : segments ds t = .ok ss)
    (hps : Items inPart limit [] ss ps) :
    Rendering.nodesOf ds limit inPart t = .ok (PlacedNode.nodes ps) := by
  rw [nodesOf_of_segments limit inPart hss]
  exact parseNodes_of_items hps

theorem nodesOf_eq_ok_iff : Rendering.nodesOf ds limit inPart t = .ok ns ↔
    ∃ ss ps, segments ds t = .ok ss ∧ Items inPart limit [] ss ps ∧
      PlacedNode.nodes ps = ns := by
  constructor
  · intro h
    obtain ⟨ss, hss, hparse⟩ := exists_segments_of_nodesOf h
    obtain ⟨ps, hps, hns⟩ := parseNodes_eq_ok_iff.mp hparse
    exact ⟨ss, ps, hss, hps, hns⟩
  · rintro ⟨ss, ps, hss, hps, rfl⟩
    exact nodesOf_of_items hss hps

end Reading

/-- Successful directives have nodes, whose parts are registered before they are carried out. -/
theorem Template.exists_of_runDirectives {t u : Template} {fs : Functions} {limits : Limits}
    {contents : Text} {s : Splice} (h : t.runDirectives fs limits contents = (u, .ok s)) :
    ∃ nodes parts,
      Rendering.nodesOf t.own.delimiters limits.directiveDepth false contents = .ok nodes ∧
      nameParts (t.scope fs) (definitionsIn nodes) = (parts, none) ∧ t.register parts = u ∧
      (u.rendering fs limits.directiveDepth parts).render nodes = .ok s := by
  unfold runDirectives at h
  split at h
  next => cases h
  next nodes hnodes =>
    cases hparts : nameParts (t.scope fs) (definitionsIn nodes) with
    | mk parts failure =>
      rw [hparts] at h
      cases failure with
      | some f => cases h
      | none =>
        obtain ⟨rfl, hs⟩ := Prod.mk.inj h
        exact ⟨nodes, parts, hnodes, hparts, rfl, hs⟩

end Stencil
