/- Carrying out directives and replacing tags with higher limits. -/
import Stencil.Proofs.Node.Limit
import Stencil.Splice.Parts
import Stencil.Splice.Tags

namespace Stencil

open Outcome

namespace Rendering

variable {r : Rendering} {limit more : Nat} {put put' : Inclusion → Except Failure Splice}

def withLimit (r : Rendering) (limit : Nat) : Rendering := { r with limit }

@[simp] theorem withLimit_template : (r.withLimit limit).template = r.template := rfl

@[simp] theorem withLimit_scope : (r.withLimit limit).scope = r.scope := rfl

@[simp] theorem withLimit_limit : (r.withLimit limit).limit = limit := rfl

theorem shown_withLimit : (r.withLimit limit).shown = r.shown := rfl

theorem inherited_withLimit : (r.withLimit limit).inherited = r.inherited := rfl

theorem keptUnless_nodesOf (hlimit : limit ≤ more) (ds : DelimiterSet) (inPart : Bool) (t : Text) :
    KeptUnless Failure.IsLimit (nodesOf ds limit inPart t) (nodesOf ds more inPart t) := by
  unfold nodesOf
  cases segments ds t with
  | error e => exact .refl _
  | ok ss => exact keptUnless_parseNodes hlimit inPart ss

theorem keptUnless_renderNodes_cons {part : Option ShownPart} {origin : Origin} {n : Node}
    {ns : List Node}
    (hn : KeptUnless Failure.IsLimit (renderNode r put part origin n)
      (renderNode (r.withLimit more) put' part origin n))
    (hns : KeptUnless Failure.IsLimit (renderNodes r put part origin ns)
      (renderNodes (r.withLimit more) put' part origin ns)) :
    KeptUnless Failure.IsLimit (renderNodes r put part origin (n :: ns))
      (renderNodes (r.withLimit more) put' part origin (n :: ns)) := by
  rw [renderNodes, renderNodes]
  refine hn.elim (fun x => ?_) fun _ _ hf => .of_cut hf _
  cases x with
  | error f => exact .refl _
  | ok first => exact hns.elim (fun _ => .refl _) fun _ _ hf => .of_cut hf _

theorem keptUnless_renderNodes (hput : ∀ i, KeptUnless Failure.IsLimit (put i) (put' i))
    (part : Option ShownPart) (origin : Origin) (ns : List Node) :
    KeptUnless Failure.IsLimit (renderNodes r put part origin ns)
      (renderNodes (r.withLimit more) put' part origin ns) := by
  induction ns using nodesInduction with
  | nil => exact .refl _
  | text t line ns ih => exact keptUnless_renderNodes_cons (.refl _) ih
  | part name body children line bodyLine ns _ ih => exact keptUnless_renderNodes_cons (.refl _) ih
  | showPart name line ns ih =>
    refine keptUnless_renderNodes_cons ?_ ih
    rw [renderNode, renderNode, withLimit_scope, shown_withLimit]
    cases r.scope.nameOf name with
    | error e => exact .refl _
    | ok name =>
      dsimp only
      cases r.shown name (origin.line line) with
      | error cause => exact .refl _
      | ok i => exact hput i
  | showParent line ns ih =>
    refine keptUnless_renderNodes_cons ?_ ih
    rw [renderNode, renderNode, inherited_withLimit]
    cases r.inherited (origin.line line) part with
    | error cause => exact .refl _
    | ok i => exact hput i
  | conditional test yes no line ns hyes hno ih =>
    refine keptUnless_renderNodes_cons ?_ ih
    rw [renderNode, renderNode, withLimit_scope]
    cases r.scope.eval test with
    | error e => exact .refl _
    | ok v =>
      dsimp only
      split
      next => exact hyes
      next => exact hno

theorem keptUnless_expand (hlimit : r.limit ≤ more) {budget budget' : Nat}
    (hbudget : budget ≤ budget') (i : Inclusion) :
    KeptUnless Failure.IsLimit (expand r budget i) (expand (r.withLimit more) budget' i) := by
  induction budget generalizing budget' i with
  | zero => exact .inr ⟨_, rfl, rfl⟩
  | succ b ih =>
    cases budget' with
    | zero => cases hbudget
    | succ b' =>
      rw [expand, expand, withLimit_template, withLimit_limit]
      refine (keptUnless_nodesOf hlimit r.template.own.delimiters true i.body).elim (fun x => ?_)
        fun f _ hf => .inr ⟨i.origin.relocate f, rfl, hf⟩
      cases x with
      | error f => exact .refl _
      | ok nodes => exact keptUnless_renderNodes (ih (Nat.le_of_succ_le_succ hbudget)) _ _ nodes

theorem keptUnless_render (hlimit : r.limit ≤ more) (nodes : List Node) :
    KeptUnless Failure.IsLimit (r.render nodes) ((r.withLimit more).render nodes) :=
  keptUnless_renderNodes (keptUnless_expand hlimit hlimit) none (.source 1) nodes

end Rendering

/-- The directives have the same result and leave the same template, unless they were cut short. -/
theorem Template.keptUnless_runDirectives (t : Template) (fs : Functions) {limits more : Limits}
    (hlimit : limits.directiveDepth ≤ more.directiveDepth) (contents : Text) :
    t.runDirectives fs more contents = t.runDirectives fs limits contents ∨
      ∃ f, (t.runDirectives fs limits contents).2 = .error f ∧ f.IsLimit := by
  unfold runDirectives
  refine (Rendering.keptUnless_nodesOf hlimit t.own.delimiters false contents).elim (fun x => ?_)
    fun f _ hf => .inr ⟨f, rfl, hf⟩
  cases x with
  | error f => exact .inl rfl
  | ok nodes =>
    dsimp only
    cases nameParts (t.scope fs) (definitionsIn nodes) with
    | mk parts failure =>
      cases failure with
      | some f => exact .inl rfl
      | none =>
        let r := (t.register parts).rendering fs limits.directiveDepth parts
        exact (r.keptUnless_render hlimit nodes).imp_left (congrArg (Prod.mk (t.register parts)))

namespace Tagging

variable {g : Tagging} {limit more : Nat} {fill fill' : Text → List Segment → Except Cause Text}

def withLimit (g : Tagging) (limit : Nat) : Tagging := { g with limit }

@[simp] theorem withLimit_template : (g.withLimit limit).template = g.template := rfl

@[simp] theorem withLimit_limit : (g.withLimit limit).limit = limit := rfl

theorem valueOf_withLimit : (g.withLimit limit).valueOf = g.valueOf := rfl

theorem insert_withLimit : (g.withLimit limit).insert = g.insert := rfl

theorem keptUnless_replace
    (hfill : ∀ body ss, KeptUnless Cause.IsLimit (fill body ss) (fill' body ss)) (s : Segment) :
    KeptUnless Cause.IsLimit (g.replace fill s) ((g.withLimit more).replace fill' s) := by
  cases s with
  | tag kind opening body closing =>
    rw [replace, replace, withLimit_template, valueOf_withLimit, insert_withLimit]
    cases g.valueOf body.trim with
    | error cause => exact .refl _
    | ok value =>
      dsimp only
      cases taggedSegments? g.template.own.delimiters value with
      | none => exact .refl _
      | some ss => exact (hfill body.trim ss).map _
  | _ => exact .refl _

theorem keptUnless_replaceAll
    (hfill : ∀ body ss, KeptUnless Cause.IsLimit (fill body ss) (fill' body ss))
    (ss : List Segment) :
    KeptUnless Cause.IsLimit (g.replaceAll fill ss) ((g.withLimit more).replaceAll fill' ss) := by
  induction ss with
  | nil => exact .refl _
  | cons s ss ih =>
    rw [replaceAll, replaceAll]
    refine (keptUnless_replace hfill s).elim (fun x => ?_) fun _ _ hcause => .of_cut hcause _
    cases x with
    | error cause => exact .refl _
    | ok first => exact ih.elim (fun _ => .refl _) fun _ _ hcause => .of_cut hcause _

theorem keptUnless_complete {budget budget' : Nat} (hbudget : budget ≤ budget') (body : Text)
    (ss : List Segment) :
    KeptUnless Cause.IsLimit (g.complete budget body ss)
      ((g.withLimit more).complete budget' body ss) := by
  induction budget generalizing budget' body ss with
  | zero => exact .inr ⟨_, rfl, rfl⟩
  | succ b ih =>
    cases budget' with
    | zero => cases hbudget
    | succ b' => exact keptUnless_replaceAll (ih (Nat.le_of_succ_le_succ hbudget)) ss

theorem keptUnless_replaceFrom (hlimit : g.limit ≤ more) (s : Splice) (position : Nat)
    (ss : List Segment) :
    KeptUnless Failure.IsLimit (g.replaceFrom s position ss)
      ((g.withLimit more).replaceFrom s position ss) := by
  induction ss generalizing position with
  | nil => exact .refl _
  | cons segment ss ih =>
    rw [replaceFrom, replaceFrom, withLimit_limit]
    have hreplace : KeptUnless Cause.IsLimit (g.replace (g.complete g.limit) segment)
        ((g.withLimit more).replace ((g.withLimit more).complete more) segment) :=
      keptUnless_replace (keptUnless_complete hlimit) segment
    refine hreplace.elim (fun x => ?_) fun _ _ hcause => .inr ⟨⟨_, s.lineAt position⟩, rfl, hcause⟩
    cases x with
    | error cause => exact .refl _
    | ok first =>
      exact (ih (position + segment.raw.length)).elim (fun _ => .refl _)
        fun _ _ hf => .of_cut hf _

theorem keptUnless_run (hlimit : g.limit ≤ more) (s : Splice) :
    KeptUnless Failure.IsLimit (g.run s) ((g.withLimit more).run s) := by
  rw [run, run, withLimit_template]
  cases segments g.template.own.delimiters s.text with
  | error e => exact .refl _
  | ok ss => exact keptUnless_replaceFrom hlimit s 0 ss

end Tagging

end Stencil
