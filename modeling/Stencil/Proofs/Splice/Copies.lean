/- What directives copy: segments of the contents and of the bodies of parts. -/
import Stencil.Proofs.Node.Within
import Stencil.Proofs.Segment.Seams
import Stencil.Proofs.Splice.Nesting
import Stencil.Proofs.Template.Lookup

namespace Stencil

theorem mem_nodesWithin_cons {n m : Node} {ns : List Node} :
    m ∈ nodesWithin (n :: ns) ↔ m ∈ nodesWithin [n] ∨ m ∈ nodesWithin ns := by
  rw [nodesWithin, nodesWithin, nodesWithin, List.append_nil, List.mem_append]

theorem mem_nodesWithin_conditional {test : Expr} {yes no : List Node} {line other : Nat}
    {t : Text} : .text t other ∈ nodesWithin [.conditional test yes no line] ↔
      .text t other ∈ nodesWithin yes ∨ .text t other ∈ nodesWithin no := by
  simp [nodesWithin, Node.within]

theorem mem_nodesWithin_part {name : Expr} {body t : Text} {children : List Node}
    {line bodyLine other : Nat} :
    .text t other ∈ nodesWithin [.part name body children line bodyLine] ↔
      .text t other ∈ nodesWithin children := by
  simp [nodesWithin, Node.within]

/-- The texts among the nodes are segments that are no directives. -/
def CopiesFrom (ss : List Segment) (ns : List Node) : Prop :=
  ∀ t line, .text t line ∈ nodesWithin ns → ∃ s ∈ ss, s.isDirective = false ∧ s.raw = t

section CopiesFrom

variable {ss ts : List Segment} {ns ms : List Node}

theorem CopiesFrom.mono (h : CopiesFrom ss ns) (hsub : ss ⊆ ts) : CopiesFrom ts ns := by
  intro t line hmem
  obtain ⟨s, hs, hraw⟩ := h t line hmem
  exact ⟨s, hsub hs, hraw⟩

theorem CopiesFrom.append (hss : CopiesFrom ss ns) (hts : CopiesFrom ts ms) :
    CopiesFrom (ss ++ ts) (ns ++ ms) := by
  intro t line hmem
  rw [nodesWithin_append] at hmem
  rcases List.mem_append.mp hmem with hmem | hmem
  · exact hss.mono (List.subset_append_left _ _) t line hmem
  · exact hts.mono (List.subset_append_right _ _) t line hmem

theorem copiesFrom_nil (ss : List Segment) : CopiesFrom ss [] :=
  fun _ _ hmem => nomatch hmem

/-- A segment that is a node of its own. -/
theorem CopiesFrom.cons {s : Segment} {n : Node} (hn : n.within = [n])
    (hkind : ∀ t line, n = .text t line → s.isDirective = false ∧ s.raw = t)
    (h : CopiesFrom ss ns) : CopiesFrom (s :: ss) (n :: ns) := by
  have hfirst : CopiesFrom [s] [n] := by
    intro t line hmem
    rw [nodesWithin, nodesWithin, List.append_nil, hn] at hmem
    exact ⟨s, List.mem_cons_self, hkind t line (List.mem_singleton.mp hmem).symm⟩
  exact hfirst.append h

theorem CopiesFrom.part {name : Expr} {body : Text} {line bodyLine : Nat}
    (h : CopiesFrom ss ns) : CopiesFrom ss [.part name body ns line bodyLine] :=
  fun t other hmem => h t other (mem_nodesWithin_part.mp hmem)

theorem CopiesFrom.conditional {test : Expr} {yes no : List Node} {line : Nat}
    (hyes : CopiesFrom ss yes) (hno : CopiesFrom ts no) :
    CopiesFrom (ss ++ ts) [.conditional test yes no line] := by
  intro t other hmem
  refine hyes.append hno t other ?_
  rw [nodesWithin_append]
  exact List.mem_append.mpr (mem_nodesWithin_conditional.mp hmem)

end CopiesFrom

theorem copiesFrom_of_items {inPart : Bool} {room : Nat} {before : Text} {ss : List Segment}
    {ps : List PlacedNode} (h : Items inPart room before ss ps) :
    CopiesFrom ss (PlacedNode.nodes ps) := by
  induction h using Items.rec (motive_2 := fun _ _ _ _ _ ss p _ => CopiesFrom ss [p.node]) with
  | nil => exact copiesFrom_nil _
  | @text _ _ _ s _ _ hs _ ih =>
    refine .cons rfl (fun t line heq => ⟨hs, ?_⟩) ih
    cases heq
    rfl
  | showPart _ _ ih => exact .cons rfl nofun ih
  | showParent _ _ _ ih => exact .cons rfl nofun ih
  | part _ _ _ _ ihchildren ih =>
    refine CopiesFrom.append (?_ : CopiesFrom _ [_]) ih
    refine (ihchildren.mono ?_).part
    exact List.Subset.trans (List.subset_append_left _ _) (List.subset_cons_self _ _)
  | conditional _ _ _ ihchain ih =>
    exact CopiesFrom.append (ihchain.mono (List.subset_cons_self _ _)) ih
  | close _ _ ih => exact ih.conditional (copiesFrom_nil _)
  | otherwise _ _ _ _ ihyes ihno =>
    refine ihyes.conditional (ihno.mono ?_)
    exact List.Subset.trans (List.subset_append_left _ _) (List.subset_cons_self _ _)
  | elseIf _ _ _ ih ihchain => exact ih.conditional (ihchain.mono (List.subset_cons_self _ _))

namespace Template

/-- A segment of the contents, or of the body of a part in sight, that is no directive. -/
structure Supplies (t : Template) (contents : Text) (x : Segment) : Prop where
  verbatim : x.isDirective = false
  cut : ∃ text ss, (text = contents ∨ ∃ k, t.bodyOf? k = some text) ∧
    segments t.own.delimiters text = .ok ss ∧ x ∈ ss

def SuppliesText (t : Template) (contents text : Text) : Prop :=
  ∃ x, t.Supplies contents x ∧ x.raw = text

theorem Supplies.fits {t : Template} (hds : t.own.delimiters.Closes) {contents : Text}
    {x : Segment} (h : t.Supplies contents x) :
    x.raw ≠ [] ∧ ∃ after, t.own.delimiters.Fits after x := by
  obtain ⟨text, ss, -, hss, hx⟩ := h.cut
  exact ((DelimiterSet.segments_eq_ok_iff hds).mp hss).2.fits_of_mem hds hx

/-- The chunks are segments that are supplied, one for one. -/
structure Hands (t : Template) (contents : Text) (s : Splice) (xs : List Segment) : Prop where
  texts : xs.map Segment.raw = s.map Chunk.text
  supplied : ∀ x ∈ xs, t.Supplies contents x

theorem exists_hands_of_supplies {t : Template} {contents : Text} {s : Splice}
    (h : ∀ c ∈ s, t.SuppliesText contents c.text) : ∃ xs, t.Hands contents s xs := by
  induction s with
  | nil => exact ⟨[], rfl, nofun⟩
  | cons c s ih =>
    obtain ⟨⟨x, hx, hraw⟩, hs⟩ := List.forall_mem_cons.mp h
    obtain ⟨xs, hxs⟩ := ih hs
    refine ⟨x :: xs, ?_, List.forall_mem_cons.mpr ⟨hx, hxs.supplied⟩⟩
    rw [List.map_cons, List.map_cons, hraw, hxs.texts]

theorem Hands.source {t : Template} {contents : Text} {s : Splice} {xs : List Segment}
    (h : t.Hands contents s xs) : Stencil.source xs = s.text := by
  rw [Stencil.source, Splice.text, List.flatMap, List.flatMap, h.texts]

/-- What is handed over is found again exactly if nothing runs into what is handed over next. -/
theorem Hands.segments_eq_ok_iff {t : Template} {contents : Text} {s : Splice} {xs : List Segment}
    (hds : t.own.delimiters.Closes) (h : t.Hands contents s xs) :
    segments t.own.delimiters s.text = .ok (joinTexts xs) ↔ t.own.delimiters.Seamless xs := by
  rw [← h.source]
  exact DelimiterSet.segments_source_iff_seamless hds
    (fun x hx => ((h.supplied x hx).fits hds).1) (fun x hx => (h.supplied x hx).verbatim)
    fun x hx => ((h.supplied x hx).fits hds).2

end Template

namespace Rendering

variable {r : Rendering} {part : Option ShownPart} {origin : Origin} {ns : List Node} {s : Splice}
  {P : Text → Prop}

/-- Carrying out nodes copies the texts among them and what is put in place of others. -/
theorem forall_mem_of_renderNodes {put : Inclusion → Except Failure Splice}
    (hput : ∀ i s k, r.template.bodyOf? k = some i.body → put i = .ok s → ∀ c ∈ s, P c.text)
    (hns : ∀ t line, .text t line ∈ nodesWithin ns → P t)
    (h : renderNodes r put part origin ns = .ok s) : ∀ c ∈ s, P c.text := by
  induction ns using nodesInduction generalizing s with
  | nil =>
    cases h
    nofun
  | text t line ns ih =>
    obtain ⟨first, rest, hfirst, hrest, rfl⟩ := renderNodes_cons_eq_ok_iff.mp h
    cases hfirst
    have htail := ih (fun u l hmem => hns u l (List.mem_cons_of_mem _ hmem)) hrest
    exact List.forall_mem_cons.mpr ⟨hns t line List.mem_cons_self, htail⟩
  | part name body children line bodyLine ns _ ih =>
    obtain ⟨first, rest, hfirst, hrest, rfl⟩ := renderNodes_cons_eq_ok_iff.mp h
    cases hfirst
    exact ih (fun u l hmem => hns u l (mem_nodesWithin_cons.mpr (.inr hmem))) hrest
  | showPart e line ns ih =>
    obtain ⟨first, rest, hfirst, hrest, rfl⟩ := renderNodes_cons_eq_ok_iff.mp h
    have htail := ih (fun u l hmem => hns u l (mem_nodesWithin_cons.mpr (.inr hmem))) hrest
    obtain ⟨name, i, -, hshown, hbody⟩ := renderNode_showPart_eq_ok_iff.mp hfirst
    obtain ⟨p, hp, rfl⟩ := shown_eq_ok_iff.mp hshown
    have hhead := hput _ _ _ (Template.bodyOf?_of_part? hp) hbody
    exact List.forall_mem_append.mpr ⟨hhead, htail⟩
  | showParent line ns ih =>
    obtain ⟨first, rest, hfirst, hrest, rfl⟩ := renderNodes_cons_eq_ok_iff.mp h
    have htail := ih (fun u l hmem => hns u l (mem_nodesWithin_cons.mpr (.inr hmem))) hrest
    obtain ⟨i, hinherited, hbody⟩ := renderNode_showParent_eq_ok_iff.mp hfirst
    obtain ⟨shown, p, -, hp, rfl⟩ := inherited_eq_ok_iff.mp hinherited
    have hhead := hput _ _ _ (Template.bodyOf?_of_inheritedPart? hp) hbody
    exact List.forall_mem_append.mpr ⟨hhead, htail⟩
  | conditional test yes no line ns hyes hno ih =>
    obtain ⟨first, rest, hfirst, hrest, rfl⟩ := renderNodes_cons_eq_ok_iff.mp h
    have htail := ih (fun u l hmem => hns u l (mem_nodesWithin_cons.mpr (.inr hmem))) hrest
    have hbranches : ∀ t l, .text t l ∈ nodesWithin yes ∨ .text t l ∈ nodesWithin no → P t :=
      fun t l hmem => hns t l (mem_nodesWithin_cons.mpr
        (.inl (mem_nodesWithin_conditional.mpr hmem)))
    obtain ⟨v, -, htaken⟩ := renderNode_conditional_eq_ok_iff.mp hfirst
    refine List.forall_mem_append.mpr ⟨?_, htail⟩
    split at htaken
    next => exact hyes (fun t l hmem => hbranches t l (.inl hmem)) htaken
    next => exact hno (fun t l hmem => hbranches t l (.inr hmem)) htaken

variable {contents : Text}

theorem supplies_of_nodesOf {text : Text} {inPart : Bool}
    (htext : text = contents ∨ ∃ k, r.template.bodyOf? k = some text)
    (h : nodesOf r.template.own.delimiters r.limit inPart text = .ok ns) :
    ∀ t line, .text t line ∈ nodesWithin ns → r.template.SuppliesText contents t := by
  obtain ⟨ss, ps, hss, hps, rfl⟩ := nodesOf_eq_ok_iff.mp h
  intro t line hmem
  obtain ⟨x, hx, hverbatim, rfl⟩ := copiesFrom_of_items hps t line hmem
  exact ⟨x, ⟨hverbatim, text, ss, htext, hss, hx⟩, rfl⟩

theorem supplies_of_expand {budget : Nat} {i : Inclusion} {k : ShownPart}
    (hbody : r.template.bodyOf? k = some i.body) (h : r.expand budget i = .ok s) :
    ∀ c ∈ s, r.template.SuppliesText contents c.text := by
  induction budget generalizing i k s with
  | zero => cases h
  | succ budget ih =>
    obtain ⟨b, nodes, hb, hnodes, hrender⟩ := expand_eq_ok_iff.mp h
    cases hb
    refine forall_mem_of_renderNodes (fun j u l hj hu => ih hj hu) ?_ hrender
    exact supplies_of_nodesOf (.inr ⟨k, hbody⟩) hnodes

theorem supplies_of_render
    (hnodes : nodesOf r.template.own.delimiters r.limit false contents = .ok ns)
    (h : r.render ns = .ok s) : ∀ c ∈ s, r.template.SuppliesText contents c.text :=
  forall_mem_of_renderNodes (fun _ _ _ hbody hput => supplies_of_expand hbody hput)
    (supplies_of_nodesOf (.inl rfl) hnodes) h

end Rendering

end Stencil
