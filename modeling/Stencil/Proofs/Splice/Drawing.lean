/- Carrying out directives, lines aside. -/
import Stencil.Outcome
import Stencil.Proofs.Node.Moving
import Stencil.Proofs.Template.Lookup
import Stencil.Splice.Parts

namespace Stencil

/-- What the text that directives come to depends on. -/
structure Setting where
  template : Template
  scope : Scope
  limit : Nat

def Rendering.setting (r : Rendering) : Setting := ⟨r.template, r.scope, r.limit⟩

namespace Setting

/-- The body of a part that is shown. -/
def shown (g : Setting) (name : Text) : Except Cause (ShownPart × Text) :=
  match g.template.part? name with
  | none => .error (.undefinedPart name)
  | some p => .ok (⟨name, p.level⟩, p.body)

/-- The body that a `parent` in `part` brings in. -/
def inherited (g : Setting) : Option ShownPart → Except Cause (ShownPart × Text)
  | none => .error .parentOutsidePart
  | some part =>
    match g.template.inheritedPart? part.level part.name with
    | none => .error (.noInheritedPart part.name)
    | some p => .ok (⟨part.name, p.level⟩, p.body)

variable (g : Setting) (put : ShownPart → Text → Except Cause Text) (part : Option ShownPart)

mutual

/-- The text of a node in `part`, where bodies are drawn by `put`. -/
def drawNode : Node → Except Cause Text
  | .text t _ => .ok t
  | .part .. => .ok []
  | .showPart name _ =>
    match g.scope.nameOf name with
    | .error e => .error (.evaluation e)
    | .ok name => (g.shown name).bind fun p => put p.1 p.2
  | .showParent _ => (g.inherited part).bind fun p => put p.1 p.2
  | .conditional test yes no _ =>
    match g.scope.eval test with
    | .error e => .error (.evaluation e)
    | .ok v => if v.isTruthy then drawNodes yes else drawNodes no

def drawNodes : List Node → Except Cause Text
  | [] => .ok []
  | n :: ns => (drawNode n).bind fun first => (drawNodes ns).map (first ++ ·)

end

/-- The text of a body when `budget` bodies can be put into each other, this one included. -/
def drawBody : Nat → ShownPart → Text → Except Cause Text
  | 0, part, _ => .error (.partTooDeep part.name g.limit)
  | budget + 1, part, body =>
    match Rendering.nodesOf g.template.own.delimiters g.limit true body with
    | .error f => .error f.cause
    | .ok nodes => g.drawNodes (drawBody budget) (some part) nodes

end Setting

namespace Setting

variable {g : Setting} {put : ShownPart → Text → Except Cause Text} {part : Option ShownPart}

/-- Two texts, one behind the other, are there if both are. -/
theorem joined_eq_ok_iff {x y : Except Cause Text} {t : Text} :
    (x.bind fun first => y.map (first ++ ·)) = .ok t ↔
      ∃ first rest, x = .ok first ∧ y = .ok rest ∧ first ++ rest = t := by
  cases x with
  | error cause => simp [Except.bind]
  | ok first =>
    cases y with
    | error cause => simp [Except.bind, Except.map]
    | ok rest => simp [Except.bind, Except.map]

theorem drawNodes_cons_eq_ok_iff {n : Node} {ns : List Node} {t : Text} :
    g.drawNodes put part (n :: ns) = .ok t ↔ ∃ first rest, g.drawNode put part n = .ok first ∧
      g.drawNodes put part ns = .ok rest ∧ first ++ rest = t := by
  rw [drawNodes]
  exact joined_eq_ok_iff

theorem drawNodes_append (ns ms : List Node) :
    g.drawNodes put part (ns ++ ms) =
      (g.drawNodes put part ns).bind fun first => (g.drawNodes put part ms).map (first ++ ·) := by
  induction ns with
  | nil =>
    rw [List.nil_append, drawNodes]
    cases g.drawNodes put part ms with
    | error cause => rfl
    | ok t => rfl
  | cons n ns ih =>
    rw [List.cons_append, drawNodes, drawNodes, ih]
    cases g.drawNode put part n with
    | error cause => rfl
    | ok first =>
      cases g.drawNodes put part ns with
      | error cause => rfl
      | ok second =>
        cases g.drawNodes put part ms with
        | error cause => rfl
        | ok rest => exact congrArg Except.ok (List.append_assoc first second rest).symm

theorem drawNodes_append_eq_ok_iff {ns ms : List Node} {t : Text} :
    g.drawNodes put part (ns ++ ms) = .ok t ↔ ∃ first rest, g.drawNodes put part ns = .ok first ∧
      g.drawNodes put part ms = .ok rest ∧ first ++ rest = t := by
  rw [drawNodes_append]
  exact joined_eq_ok_iff

theorem drawNodes_singleton (n : Node) : g.drawNodes put part [n] = g.drawNode put part n := by
  rw [drawNodes, drawNodes]
  cases g.drawNode put part n with
  | error cause => rfl
  | ok t => exact congrArg Except.ok (List.append_nil t)

mutual

theorem drawNode_moved (lines : Nat) (n : Node) :
    g.drawNode put part (n.moved lines) = g.drawNode put part n := by
  cases n with
  | conditional test yes no line =>
    rw [Node.moved, drawNode, drawNode, drawNodes_moved lines yes, drawNodes_moved lines no]
  | _ => rfl

theorem drawNodes_moved (lines : Nat) (ns : List Node) :
    g.drawNodes put part (nodesMoved lines ns) = g.drawNodes put part ns := by
  cases ns with
  | nil => rfl
  | cons n ns =>
    rw [nodesMoved, drawNodes, drawNodes, drawNode_moved lines n, drawNodes_moved lines ns]

end

end Setting

namespace Rendering

/-- The text that came of carrying out directives, or what went wrong. -/
def outcome (x : Except Failure Splice) : Except Cause Text :=
  (x.map Splice.text).mapError Failure.cause

theorem outcome_eq_ok_iff {x : Except Failure Splice} {t : Text} :
    outcome x = .ok t ↔ ∃ s, x = .ok s ∧ s.text = t := by
  rw [outcome, Outcome.mapError_eq_ok_iff, Outcome.map_eq_ok_iff]

theorem outcome_eq_error_iff {x : Except Failure Splice} {cause : Cause} :
    outcome x = .error cause ↔ ∃ f, x = .error f ∧ f.cause = cause := by
  cases x with
  | ok s => exact ⟨nofun, nofun⟩
  | error f =>
    constructor
    · exact fun h => ⟨f, rfl, Except.error.inj h⟩
    · rintro ⟨_, h, rfl⟩
      cases h
      rfl

variable {r : Rendering} {expand : Inclusion → Except Failure Splice}
  {put : ShownPart → Text → Except Cause Text} {part : Option ShownPart} {origin : Origin}

theorem shown_setting (r : Rendering) (name : Text) (line : Nat) :
    r.setting.shown name = (r.shown name line).map fun i => (i.part, i.body) := by
  have hpart : r.setting.template.part? name = r.template.part? name := rfl
  rw [Setting.shown, shown, hpart]
  cases r.template.part? name <;> rfl

theorem inherited_setting (r : Rendering) (part : Option ShownPart) (line : Nat) :
    r.setting.inherited part = (r.inherited line part).map fun i => (i.part, i.body) := by
  cases part with
  | none => rfl
  | some k =>
    have hpart : r.setting.template.inheritedPart? k.level k.name =
        r.template.inheritedPart? k.level k.name := rfl
    rw [Setting.inherited, inherited, hpart]
    cases r.template.inheritedPart? k.level k.name <;> rfl

theorem outcome_inclusion (hput : ∀ i, outcome (expand i) = put i.part i.body)
    (x : Except Cause Inclusion) (line : Nat) :
    (outcome (match x with
      | .error cause => .error ⟨cause, line⟩
      | .ok inclusion => expand inclusion)) =
      (x.map fun i => (i.part, i.body)).bind fun p => put p.1 p.2 := by
  cases x with
  | error cause => rfl
  | ok i => exact hput i

mutual

theorem outcome_renderNode (hput : ∀ i, outcome (expand i) = put i.part i.body) (n : Node) :
    outcome (r.renderNode expand part origin n) = r.setting.drawNode put part n := by
  have hscope : r.setting.scope = r.scope := rfl
  cases n with
  | text t line => exact congrArg Except.ok (List.append_nil t)
  | part name body children line bodyLine => rfl
  | showPart name line =>
    rw [renderNode, Setting.drawNode, hscope]
    cases r.scope.nameOf name with
    | error e => rfl
    | ok name =>
      dsimp only
      rw [shown_setting r name (origin.line line)]
      exact outcome_inclusion hput _ _
  | showParent line =>
    rw [renderNode, Setting.drawNode, inherited_setting r part (origin.line line)]
    exact outcome_inclusion hput _ _
  | conditional test yes no line =>
    rw [renderNode, Setting.drawNode, hscope]
    cases r.scope.eval test with
    | error e => rfl
    | ok v =>
      dsimp only
      split
      next => exact outcome_renderNodes hput yes
      next => exact outcome_renderNodes hput no

theorem outcome_renderNodes (hput : ∀ i, outcome (expand i) = put i.part i.body)
    (ns : List Node) :
    outcome (r.renderNodes expand part origin ns) = r.setting.drawNodes put part ns := by
  cases ns with
  | nil => rfl
  | cons n ns =>
    rw [renderNodes, Setting.drawNodes, ← outcome_renderNode hput n, ← outcome_renderNodes hput ns]
    cases r.renderNode expand part origin n with
    | error f => rfl
    | ok first =>
      cases r.renderNodes expand part origin ns with
      | error f => rfl
      | ok rest => exact congrArg Except.ok (Splice.text_append first rest)

end

theorem outcome_expand (budget : Nat) (i : Inclusion) :
    outcome (r.expand budget i) = r.setting.drawBody budget i.part i.body := by
  induction budget generalizing i with
  | zero => rfl
  | succ b ih =>
    have hnodes : nodesOf r.setting.template.own.delimiters r.setting.limit true i.body =
        nodesOf r.template.own.delimiters r.limit true i.body := rfl
    rw [Rendering.expand, Setting.drawBody, hnodes]
    cases nodesOf r.template.own.delimiters r.limit true i.body with
    | error f => rfl
    | ok nodes => exact outcome_renderNodes ih nodes

end Rendering

/-- The text that the directives of contents come to is drawn in the setting of their rendering. -/
theorem Rendering.outcome_render (r : Rendering) (ns : List Node) :
    outcome (r.render ns) = r.setting.drawNodes (r.setting.drawBody r.limit) none ns :=
  outcome_renderNodes (outcome_expand r.limit) ns

/-- Names mean the same before and after parts are registered. -/
theorem Template.setting_rendering (t : Template) (fs : Functions) (limit : Nat)
    (parts : List NamedPart) : ((t.register parts).rendering fs limit parts).setting =
      ⟨t.register parts, t.scope fs, limit⟩ := by
  rw [← scope_register parts]
  rfl

end Stencil
