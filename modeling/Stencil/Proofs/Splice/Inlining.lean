/- Nodes in place of a directive that puts them there: they come to the same text. -/
import Stencil.Proofs.Node.Definitions
import Stencil.Proofs.Node.Inlining
import Stencil.Proofs.Splice.Drawing
import Stencil.Proofs.Splice.Limit
import Stencil.Proofs.Template.Flattening

namespace Stencil

/-- Where the first succeeds, the second has the same result. -/
def Outcome.Keeps {ε α : Type} (x y : Except ε α) : Prop := ∀ a, x = .ok a → y = .ok a

theorem Outcome.keeps_error {ε α : Type} (e : ε) (y : Except ε α) : Keeps (.error e) y := by
  intro a ha
  cases ha

open Outcome

theorem inheritsIn_of_items {inPart : Bool} {room : Nat} {before : Text} {ss : List Segment}
    {ps : List PlacedNode} (h : Items inPart room before ss ps) :
    (∀ s ∈ ss, ¬ s.Names .parent) → inheritsIn (PlacedNode.nodes ps) = false := by
  induction h using Items.rec
    (motive_2 := fun _ _ _ _ _ ss p _ =>
      (∀ s ∈ ss, ¬ s.Names .parent) → p.node.inherits = false) with
  | nil => exact fun _ => rfl
  | text _ _ ih => exact fun hss => ih (List.forall_mem_cons.mp hss).2
  | showPart _ _ ih => exact fun hss => ih (List.forall_mem_cons.mp hss).2
  | showParent hs _ _ _ => exact fun hss => absurd ⟨_, hs⟩ (List.forall_mem_cons.mp hss).1
  | part _ _ _ _ _ ih => exact fun hss => ih (List.forall_mem_append.mp hss).2
  | conditional _ _ _ ihchain ih =>
    intro hss
    obtain ⟨hblock, hrest⟩ := List.forall_mem_append.mp hss
    exact Bool.or_eq_false_iff.mpr ⟨ihchain (List.forall_mem_cons.mp hblock).2, ih hrest⟩
  | close _ _ ih hss =>
    exact Bool.or_eq_false_iff.mpr ⟨ih (List.forall_mem_append.mp hss).1, rfl⟩
  | otherwise _ _ _ _ ihyes ihno hss =>
    obtain ⟨hyes, hturn⟩ := List.forall_mem_append.mp hss
    have hno := (List.forall_mem_append.mp (List.forall_mem_cons.mp hturn).2).1
    exact Bool.or_eq_false_iff.mpr ⟨ihyes hyes, ihno hno⟩
  | elseIf _ _ _ ih ihchain hss =>
    obtain ⟨hyes, hturn⟩ := List.forall_mem_append.mp hss
    have hchain := ihchain (List.forall_mem_cons.mp hturn).2
    exact Bool.or_eq_false_iff.mpr ⟨ih hyes, Bool.or_eq_false_iff.mpr ⟨hchain, rfl⟩⟩

/-- Parts are written alike wherever they stand. -/
theorem written_nodesMoved (lines : Nat) (ns : List Node) :
    (definitionsIn (nodesMoved lines ns)).map PartDefinition.written =
      (definitionsIn ns).map PartDefinition.written := by
  induction ns using nodesInduction with
  | nil => rfl
  | text t line ns ih => exact ih
  | part name body children line bodyLine ns _ ih => exact congrArg (_ :: ·) ih
  | showPart name line ns ih => exact ih
  | showParent line ns ih => exact ih
  | conditional test yes no line ns hyes hno ih =>
    simp only [nodesMoved, Node.moved, definitionsIn, Node.definitions, List.map_append, hyes, hno,
      ih]

/-- Parts that are written alike are named alike, up to the same failure. -/
theorem nameParts_congr (s : Scope) {ds es : List PartDefinition}
    (h : ds.map PartDefinition.written = es.map PartDefinition.written) :
    ((nameParts s ds).1.map fun p => (p.name, p.body)) =
        (nameParts s es).1.map (fun p => (p.name, p.body)) ∧
      (nameParts s ds).2.map Failure.cause = (nameParts s es).2.map Failure.cause := by
  induction ds generalizing es with
  | nil =>
    rw [List.map_eq_nil_iff.mp h.symm]
    exact ⟨rfl, rfl⟩
  | cons d ds ih =>
    cases es with
    | nil => cases h
    | cons e es =>
      obtain ⟨hhead, htail⟩ := List.cons.inj h
      obtain ⟨hname, hbody⟩ := WrittenPart.mk.inj hhead
      obtain ⟨hpairs, hcauses⟩ := ih htail
      rw [nameParts, nameParts, ← hname]
      cases s.nameOf d.name with
      | error _ => exact ⟨rfl, rfl⟩
      | ok name =>
        refine ⟨?_, hcauses⟩
        rw [List.map_cons, List.map_cons, hpairs, ← hbody]

/-- Parts that are written alike have the same names and bodies. -/
theorem nameParts_of_written (s : Scope) {ds es : List PartDefinition}
    (h : ds.map PartDefinition.written = es.map PartDefinition.written) {named : List NamedPart}
    (hnamed : nameParts s ds = (named, none)) : ∃ others, nameParts s es = (others, none) ∧
      others.map (fun p => (p.name, p.body)) = named.map fun p => (p.name, p.body) := by
  obtain ⟨hpairs, hcauses⟩ := nameParts_congr s h
  rw [hnamed] at hpairs hcauses
  have hnone : (nameParts s es).2 = none := Option.map_eq_none_iff.mp hcauses.symm
  exact ⟨_, Prod.ext rfl hnone, hpairs.symm⟩

namespace Setting

variable {g : Setting} {put put' : ShownPart → Text → Except Cause Text}
  {part part' : Option ShownPart}

theorem keeps_drawNodes_cons {n m : Node} {ns ms : List Node}
    (hnode : Keeps (g.drawNode put part n) (g.drawNode put' part' m))
    (hrest : Keeps (g.drawNodes put part ns) (g.drawNodes put' part' ms)) :
    Keeps (g.drawNodes put part (n :: ns)) (g.drawNodes put' part' (m :: ms)) := by
  intro t ht
  obtain ⟨first, rest, hfirst, htail, rfl⟩ := drawNodes_cons_eq_ok_iff.mp ht
  exact drawNodes_cons_eq_ok_iff.mpr ⟨first, rest, hnode _ hfirst, hrest _ htail, rfl⟩

theorem keeps_drawNode_conditional {yes no yes' no' : List Node} (test : Expr) (line line' : Nat)
    (hyes : Keeps (g.drawNodes put part yes) (g.drawNodes put' part' yes'))
    (hno : Keeps (g.drawNodes put part no) (g.drawNodes put' part' no')) :
    Keeps (g.drawNode put part (.conditional test yes no line))
      (g.drawNode put' part' (.conditional test yes' no' line')) := by
  rw [drawNode, drawNode]
  cases g.scope.eval test with
  | error e => exact keeps_error _ _
  | ok v =>
    dsimp only
    split
    next => exact hyes
    next => exact hno

theorem keeps_bind {x : Except Cause (ShownPart × Text)}
    (hput : ∀ part body, Keeps (put part body) (put' part body)) :
    Keeps (x.bind fun p => put p.1 p.2) (x.bind fun p => put' p.1 p.2) := by
  cases x with
  | error cause => exact keeps_error _ _
  | ok p => exact hput p.1 p.2

/-- Nodes come to the same text where bodies do, in another part only if no `parent` is among
them. -/
theorem keeps_drawNodes (hput : ∀ part body, Keeps (put part body) (put' part body))
    {ns : List Node} (hpart : part = part' ∨ inheritsIn ns = false) :
    Keeps (g.drawNodes put part ns) (g.drawNodes put' part' ns) := by
  induction ns using nodesInduction with
  | nil => exact fun _ h => h
  | text t line ns ih => exact keeps_drawNodes_cons (fun _ h => h) (ih hpart)
  | part name body children line bodyLine ns _ ih =>
    exact keeps_drawNodes_cons (fun _ h => h) (ih hpart)
  | showPart e line ns ih =>
    refine keeps_drawNodes_cons ?_ (ih hpart)
    rw [drawNode, drawNode]
    cases g.scope.nameOf e with
    | error e => exact keeps_error _ _
    | ok name => exact keeps_bind hput
  | showParent line ns ih =>
    rcases hpart with rfl | hnone
    · exact keeps_drawNodes_cons (keeps_bind hput) (ih (.inl rfl))
    · cases hnone
  | conditional test yes no line ns hyes hno ih =>
    have hinner := hpart.imp_right Bool.or_eq_false_iff.mp
    have hbranches := hinner.imp_right fun h => Bool.or_eq_false_iff.mp h.1
    refine keeps_drawNodes_cons ?_ (ih (hinner.imp_right And.right))
    exact keeps_drawNode_conditional test line line (hyes (hbranches.imp_right And.left))
      (hno (hbranches.imp_right And.right))

/-- Another body may be put around. -/
theorem keeps_drawBody_succ (budget : Nat) (part : ShownPart) (body : Text) :
    Keeps (g.drawBody budget part body) (g.drawBody (budget + 1) part body) := by
  induction budget generalizing part body with
  | zero => exact keeps_error _ _
  | succ b ih =>
    rw [drawBody, drawBody]
    split
    next => exact keeps_error _ _
    next => exact keeps_drawNodes ih (.inl rfl)

/-- The second nodes come to the same text outside parts, and write the same parts. -/
structure Follows (g : Setting) (put : ShownPart → Text → Except Cause Text)
    (ns ms : List Node) : Prop where
  text : Keeps (g.drawNodes put none ns) (g.drawNodes put none ms)
  written : (definitionsIn ns).map PartDefinition.written =
    (definitionsIn ms).map PartDefinition.written

theorem nodeCongruence_follows (g : Setting) (put : ShownPart → Text → Except Cause Text) :
    NodeCongruence (g.Follows put) where
  refl _ := ⟨fun _ h => h, rfl⟩
  trans hns hms := ⟨fun t h => hms.text t (hns.text t h), hns.written.trans hms.written⟩
  append hns hms := by
    refine ⟨fun t h => ?_, ?_⟩
    · obtain ⟨first, rest, hfirst, hrest, rfl⟩ := drawNodes_append_eq_ok_iff.mp h
      exact drawNodes_append_eq_ok_iff.mpr
        ⟨first, rest, hns.text _ hfirst, hms.text _ hrest, rfl⟩
    · simp only [definitionsIn_append, List.map_append, hns.written, hms.written]
  text _ _ _ := ⟨fun _ h => h, rfl⟩
  texts t u _ _ _ := by
    refine ⟨fun x h => ?_, rfl⟩
    cases h
    exact congrArg Except.ok (List.append_assoc t u [])
  part _ _ _ _ _ _ _ _ := ⟨fun _ h => h, rfl⟩
  showPart _ _ _ := ⟨fun _ h => h, rfl⟩
  showParent _ _ := ⟨fun _ h => h, rfl⟩
  conditional test line line' hyes hno := by
    refine ⟨keeps_drawNodes_cons ?_ fun _ h => h, ?_⟩
    · exact keeps_drawNode_conditional test line line' hyes.text hno.text
    · simp only [definitionsIn, Node.definitions, List.map_append, hyes.written, hno.written]

/-- The nodes of a body follow the directive that shows it, unless a `parent` is among them. -/
theorem follows_inlined {e : Expr} {name : Text} {p : FoundPart} {ss : List Segment}
    {inner : List Node} (hname : g.scope.nameOf e = .ok name)
    (hpart : g.template.part? name = some p)
    (hbody : segments g.template.own.delimiters p.body = .ok ss)
    (hinner : parseNodes g.limit true ss = .ok inner) (hparent : ∀ x ∈ ss, ¬ x.Names .parent)
    (budget line lines : Nat) :
    g.Follows (g.drawBody budget) [.showPart e line] (nodesMoved lines inner) where
  text := by
    intro t ht
    have hshown : g.shown name = .ok (⟨name, p.level⟩, p.body) := by
      rw [shown, hpart]
    rw [drawNodes_singleton, drawNode, hname] at ht
    dsimp only at ht
    rw [hshown] at ht
    cases budget with
    | zero => cases ht
    | succ b =>
      have hnodes : Rendering.nodesOf g.template.own.delimiters g.limit true p.body =
          .ok inner := by
        rw [Rendering.nodesOf, hbody]
        exact hinner
      have hdrawn : g.drawBody (b + 1) ⟨name, p.level⟩ p.body = .ok t := ht
      rw [drawBody, hnodes] at hdrawn
      obtain ⟨ps, hps, rfl⟩ := parseNodes_eq_ok_iff.mp hinner
      rw [drawNodes_moved]
      have hnone := inheritsIn_of_items hps hparent
      exact keeps_drawNodes (keeps_drawBody_succ b) (.inr hnone) t hdrawn
  written := by
    obtain ⟨ps, hps, rfl⟩ := parseNodes_eq_ok_iff.mp hinner
    have hnone : writtenParts ss = [] := by
      have hinside := staysInside_of_items hps rfl
      rw [← List.append_nil ss, writtenParts_append_of_ne fun x hx => (hinside x hx).1]
      rfl
    rw [written_nodesMoved, written_definitionsIn hinner, hnone]
    rfl

end Setting

end Stencil
