/- Which bodies of parts stand inside each other while directives are carried out. -/
import Mathlib.Data.List.Perm.Subperm
import Stencil.Proofs.Splice.Points
import Stencil.Proofs.Splice.Rendering

namespace Stencil

theorem Dict.mem_names_of_get? {α : Type} {d : Dict α} {name : Text} {value : α}
    (h : d.get? name = some value) : name ∈ d.names := by
  have hentries : ∀ es : List (Text × α), findEntry name es = some value →
      name ∈ es.map (·.1) := by
    intro es hes
    induction es with
    | nil => cases hes
    | cons e es ih =>
      rw [findEntry] at hes
      split at hes
      next heq => exact heq ▸ List.mem_cons_self
      next => exact List.mem_cons_of_mem _ (ih hes)
  exact hentries d.entries h

/-- A part that was found is the part of the layer at that level. -/
theorem getElem?_of_findPart? {name : Text} {ls : List Layer} {p : FoundPart}
    (h : findPart? name ls = some p) :
    ∃ l, ls[p.level]? = some l ∧ l.parts.get? name = some p.body := by
  induction ls generalizing p with
  | nil => cases h
  | cons l ls ih =>
    rw [findPart?] at h
    split at h
    next body hbody =>
      cases h
      exact ⟨l, rfl, hbody⟩
    next =>
      obtain ⟨q, hq, rfl⟩ := Option.map_eq_some_iff.mp h
      exact ih hq

namespace Template

/-- The body that the layer of a shown part has for it. -/
def bodyOf? (t : Template) (k : ShownPart) : Option Text :=
  t.layers[k.level]?.bind fun l => l.parts.get? k.name

theorem bodyOf?_of_part? {t : Template} {name : Text} {p : FoundPart}
    (h : t.part? name = some p) : t.bodyOf? ⟨name, p.level⟩ = some p.body := by
  obtain ⟨l, hl, hbody⟩ := getElem?_of_findPart? h
  rw [bodyOf?, hl]
  exact hbody

theorem bodyOf?_of_inheritedPart? {t : Template} {level : Nat} {name : Text} {p : FoundPart}
    (h : t.inheritedPart? level name = some p) : t.bodyOf? ⟨name, p.level⟩ = some p.body := by
  obtain ⟨q, hq, rfl⟩ := Option.map_eq_some_iff.mp h
  obtain ⟨l, hl, hbody⟩ := getElem?_of_findPart? hq
  rw [List.getElem?_drop, Nat.add_comm, ← Nat.add_assoc] at hl
  rw [bodyOf?, hl]
  exact hbody

/-- Every part of the template and its parents, hidden ones as well. -/
def allParts (t : Template) : List ShownPart :=
  t.layers.zipIdx.flatMap fun x => x.1.parts.names.map fun name => ⟨name, x.2⟩

/-- The number of parts that the template and its parents have. -/
def partCount (t : Template) : Nat := t.layers.foldr (fun l n => l.parts.size + n) 0

theorem length_allParts (t : Template) : t.allParts.length = t.partCount := by
  have hsizes : ∀ (ls : List Layer) (n : Nat),
      ((ls.zipIdx n).flatMap fun x =>
        x.1.parts.names.map fun name => (⟨name, x.2⟩ : ShownPart)).length =
        ls.foldr (fun l n => l.parts.size + n) 0 := by
    intro ls
    induction ls with
    | nil => exact fun _ => rfl
    | cons l ls ih =>
      intro n
      rw [List.zipIdx_cons, List.flatMap_cons, List.length_append, ih, List.length_map,
        Dict.names, List.length_map, List.foldr_cons, Dict.size]
  exact hsizes t.layers 0

theorem mem_allParts {t : Template} {k : ShownPart} {body : Text}
    (h : t.bodyOf? k = some body) : k ∈ t.allParts := by
  obtain ⟨l, hl, hbody⟩ := Option.bind_eq_some_iff.mp h
  refine List.mem_flatMap.mpr ⟨(l, k.level), ?_, ?_⟩
  · exact List.mk_mem_zipIdx_iff_getElem?.mpr hl
  · exact List.mem_map.mpr ⟨k.name, Dict.mem_names_of_get? hbody, rfl⟩

end Template

namespace Rendering

/-- The directive that comes next at a point puts a body in place. -/
inductive Brings (r : Rendering) : RenderPoint → Inclusion → Prop
  | shown {b part origin e line ns name i} : r.scope.nameOf e = .ok name →
      r.shown name (origin.line line) = .ok i →
      Brings r ⟨b, part, origin, .showPart e line :: ns⟩ i
  | inherited {b part origin line ns i} : r.inherited (origin.line line) part = .ok i →
      Brings r ⟨b, part, origin, .showParent line :: ns⟩ i

/-- The points that are passed when nodes are carried out, each with the parts whose bodies it
stands in, the innermost first. -/
inductive Passes (r : Rendering) (nodes : List Node) : List ShownPart → RenderPoint → Prop
  | start : Passes r nodes [] ⟨r.limit, none, .source 1, nodes⟩
  | past {ks b part origin n ns s} : Passes r nodes ks ⟨b, part, origin, n :: ns⟩ →
      renderNode r (expand r b) part origin n = .ok s →
      Passes r nodes ks ⟨b, part, origin, ns⟩
  | branch {ks b part origin test yes no line ns v} :
      Passes r nodes ks ⟨b, part, origin, .conditional test yes no line :: ns⟩ →
      r.scope.eval test = .ok v →
      Passes r nodes ks ⟨b, part, origin, if v.isTruthy then yes else no⟩
  | body {ks b part origin ns i inner} : Passes r nodes ks ⟨b + 1, part, origin, ns⟩ →
      Brings r ⟨b + 1, part, origin, ns⟩ i →
      nodesOf r.template.own.delimiters r.limit true i.body = .ok inner →
      Passes r nodes (i.part :: ks) ⟨b, some i.part, i.origin, inner⟩

/-- The body of a part is to be put in place where the body of that part, of the same layer, is
being put in place already. -/
def Reenters (r : Rendering) (nodes : List Node) : Prop :=
  ∃ ks m i, r.Passes nodes ks m ∧ r.Brings m i ∧ i.part ∈ ks

variable {r : Rendering} {nodes : List Node} {ks : List ShownPart} {m : RenderPoint}
  {i : Inclusion}

theorem Brings.bodyOf? (h : r.Brings m i) : r.template.bodyOf? i.part = some i.body := by
  cases h with
  | shown _ hshown =>
    obtain ⟨p, hp, rfl⟩ := shown_eq_ok_iff.mp hshown
    exact Template.bodyOf?_of_part? hp
  | inherited hinherited =>
    obtain ⟨k, p, -, hp, rfl⟩ := inherited_eq_ok_iff.mp hinherited
    exact Template.bodyOf?_of_inheritedPart? hp

/-- Each body takes one of the budget. -/
theorem Passes.length_add_budget (h : r.Passes nodes ks m) : ks.length + m.budget = r.limit := by
  induction h with
  | start => exact Nat.zero_add _
  | past _ _ ih => exact ih
  | branch _ _ ih => exact ih
  | body _ _ _ ih =>
    rw [← ih, List.length_cons]
    exact Nat.succ_add_eq_add_succ _ _

theorem Passes.mem_allParts (h : r.Passes nodes ks m) : ∀ k ∈ ks, k ∈ r.template.allParts := by
  induction h with
  | start => nofun
  | past _ _ ih => exact ih
  | branch _ _ ih => exact ih
  | body _ hbrings _ ih =>
    exact List.forall_mem_cons.mpr ⟨Template.mem_allParts hbrings.bodyOf?, ih⟩

theorem Passes.reenters_of_not_nodup (h : r.Passes nodes ks m) (hks : ¬ ks.Nodup) :
    r.Reenters nodes := by
  induction h with
  | start => exact absurd List.nodup_nil hks
  | past _ _ ih => exact ih hks
  | branch _ _ ih => exact ih hks
  | @body ks b part origin ns i inner hpasses hbrings _ ih =>
    by_cases hmem : i.part ∈ ks
    · exact ⟨_, _, i, hpasses, hbrings, hmem⟩
    · exact ih fun hnodup => hks (List.nodup_cons.mpr ⟨hmem, hnodup⟩)

/-- More bodies inside each other than there are parts hold one part twice. -/
theorem Passes.reenters_of_count_le (h : r.Passes nodes ks m) (hbudget : m.budget = 0)
    (hbrings : r.Brings m i) (hcount : r.template.partCount ≤ r.limit) : r.Reenters nodes := by
  by_cases hmem : i.part ∈ ks
  · exact ⟨ks, m, i, h, hbrings, hmem⟩
  · refine h.reenters_of_not_nodup fun hnodup => ?_
    have hall : ∀ k ∈ i.part :: ks, k ∈ r.template.allParts :=
      List.forall_mem_cons.mpr ⟨Template.mem_allParts hbrings.bodyOf?, h.mem_allParts⟩
    have hdistinct : (i.part :: ks).Nodup := List.nodup_cons.mpr ⟨hmem, hnodup⟩
    have hlength := (List.subperm_of_subset hdistinct hall).length_le
    have hlimit := h.length_add_budget
    rw [Template.length_allParts, List.length_cons] at hlength
    omega

end Rendering

/-- While the directives of a text are carried out, a part comes up again inside its own body. -/
def Template.Reenters (t : Template) (fs : Functions) (limits : Limits) (contents : Text) : Prop :=
  ∃ nodes parts,
    Rendering.nodesOf t.own.delimiters limits.directiveDepth false contents = .ok nodes ∧
    nameParts (t.scope fs) (definitionsIn nodes) = (parts, none) ∧
    ((t.register parts).rendering fs limits.directiveDepth parts).Reenters nodes

end Stencil
