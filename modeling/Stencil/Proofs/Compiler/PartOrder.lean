/- A part among other nodes: where it is defined matters only to parts of the same name. -/
import Stencil.Proofs.Compiler.Outcomes

namespace Stencil

namespace Dict

variable {α : Type}

theorem insertAll_cons (p : Text × α) (ps : List (Text × α)) (d : Dict α) :
    insertAll (p :: ps) d = insertAll ps (d.insert p.1 p.2) := rfl

theorem insertAll_append (ps qs : List (Text × α)) (d : Dict α) :
    insertAll (ps ++ qs) d = insertAll qs (insertAll ps d) := List.foldl_append

/-- A name that is not among those of the list may be set before them or after them. -/
theorem insertAll_insert {name : Text} {ps : List (Text × α)} (h : ∀ p ∈ ps, p.1 ≠ name)
    (value : α) (d : Dict α) :
    insertAll ps (d.insert name value) = (insertAll ps d).insert name value := by
  apply ext
  intro other
  rw [get?_insert, get?_insertAll_last, get?_insertAll_last, get?_insert]
  by_cases hname : name = other
  · subst hname
    have hnone : ps.reverse.find? (fun p => p.1 = name) = none := by
      rw [List.find?_eq_none]
      intro p hp
      simpa using h p (List.mem_reverse.mp hp)
    simp [hnone]
  · rw [if_neg hname, if_neg hname]

end Dict

/-- Both runs leave the same template and come to the same text, or both fail. -/
def RunsAgree {ε δ : Type} (r : Template × Except ε Text) (q : Template × Except δ Text) : Prop :=
  (∃ u out, r = (u, .ok out) ∧ q = (u, .ok out)) ∨ (∃ e, r.2 = .error e) ∧ ∃ e, q.2 = .error e

theorem RunsAgree.refl {ε : Type} (r : Template × Except ε Text) : RunsAgree r r := by
  obtain ⟨u, result⟩ := r
  cases result with
  | ok out => exact .inl ⟨u, out, rfl, rfl⟩
  | error e => exact .inr ⟨⟨e, rfl⟩, e, rfl⟩

namespace Template

variable (t : Template) (fs : Functions) (limit : Nat) {ns : List Node}

theorem carryOut_of_named {ps : List NamedPart}
    (h : nameParts (t.scope fs) (definitionsIn ns) = (ps, none)) :
    let g : Setting := ⟨t.register ps, t.scope fs, limit⟩
    t.carryOut fs limit ns = (t.register ps, g.drawNodes (g.drawBody limit) none ns) := by
  rw [carryOut]
  dsimp only
  rw [h]
  rfl

theorem exists_error_of_unnamed {d : PartDefinition} (hd : d ∈ definitionsIn ns)
    (hnone : ∀ name, (t.scope fs).nameOf d.name ≠ .ok name) :
    ∃ cause, (t.carryOut fs limit ns).2 = .error cause := by
  rw [carryOut]
  dsimp only
  cases hparts : nameParts (t.scope fs) (definitionsIn ns) with
  | mk ps failure =>
    cases failure with
    | some f => exact ⟨f.cause, rfl⟩
    | none =>
      obtain ⟨name, hname⟩ := exists_nameParts_iff.mp ⟨ps, hparts⟩ d hd
      exact absurd hname (hnone name)

/-- A part is registered behind others as it is in front of them, unless one has its name. -/
theorem register_append {p : NamedPart} {ps : List NamedPart} (h : ∀ q ∈ ps, q.name ≠ p.name)
    (qs : List NamedPart) : t.register (ps ++ p :: qs) = t.register (p :: (ps ++ qs)) := by
  have hpairs : ∀ q ∈ ps.map (fun q => (q.name, q.body)), q.1 ≠ p.name := by
    simpa using h
  rw [register_eq, register_eq]
  simp only [List.map_append, List.map_cons, Dict.insertAll_append, Dict.insertAll_cons,
    Dict.insertAll_insert hpairs]

/-- A part comes to no text where it is written. -/
theorem drawNodes_part (g : Setting) (put : ShownPart → Text → Except Cause Text)
    (part : Option ShownPart) (name : Expr) (body : Text) (children : List Node)
    (line bodyLine : Nat) (ns : List Node) :
    g.drawNodes put part (.part name body children line bodyLine :: ns) =
      g.drawNodes put part ns := by
  rw [Setting.drawNodes, Setting.drawNode]
  show (g.drawNodes put part ns).map ([] ++ ·) = _
  cases g.drawNodes put part ns with
  | error cause => rfl
  | ok text => rfl

/-- A part may be defined in front of other nodes or behind them, if these do not define one of the
same name. Where some part has no name, both ways fail. -/
theorem carryOut_part_moved {name : Expr} {body : Text} {children : List Node}
    {line bodyLine : Nat} {xs ys : List Node}
    (hdistinct : ∀ n, (t.scope fs).nameOf name = .ok n →
      ∀ p ∈ definitionsIn xs, (t.scope fs).nameOf p.name ≠ .ok n) :
    let d := Node.part name body children line bodyLine
    RunsAgree (t.carryOut fs limit (xs ++ d :: ys)) (t.carryOut fs limit (d :: (xs ++ ys))) := by
  intro d
  let p : PartDefinition := ⟨name, body, line, bodyLine⟩
  have hamong : definitionsIn (xs ++ d :: ys) = definitionsIn xs ++ (p :: definitionsIn ys) :=
    definitionsIn_append xs (d :: ys)
  have hfirst : definitionsIn (d :: (xs ++ ys)) = p :: (definitionsIn xs ++ definitionsIn ys) :=
    congrArg (p :: ·) (definitionsIn_append xs ys)
  by_cases hall : ∀ q ∈ definitionsIn (d :: (xs ++ ys)), ∃ n, (t.scope fs).nameOf q.name = .ok n
  · rw [hfirst, List.forall_mem_cons, List.forall_mem_append] at hall
    obtain ⟨⟨n, hn⟩, hxs, hys⟩ := hall
    obtain ⟨front, hfront⟩ := exists_nameParts_iff.mpr hxs
    obtain ⟨rear, hrear⟩ := exists_nameParts_iff.mpr hys
    have hnamed : nameParts (t.scope fs) (definitionsIn (xs ++ d :: ys)) =
        (front ++ ⟨n, body, bodyLine⟩ :: rear, none) := by
      rw [hamong, nameParts_append hfront, nameParts_cons_of_ok hn, hrear]
    have hnamed' : nameParts (t.scope fs) (definitionsIn (d :: (xs ++ ys))) =
        (⟨n, body, bodyLine⟩ :: (front ++ rear), none) := by
      rw [hfirst, nameParts_cons_of_ok hn, nameParts_append hfront, hrear]
    have hother : ∀ q ∈ front, q.name ≠ n := by
      rintro q hq rfl
      obtain ⟨e, he, hname⟩ := exists_of_mem_nameParts hfront hq
      exact hdistinct q.name hn e he hname
    rw [t.carryOut_of_named fs limit hnamed, t.carryOut_of_named fs limit hnamed',
      t.register_append hother rear, Setting.drawNodes_append, drawNodes_part, drawNodes_part,
      Setting.drawNodes_append]
    exact .refl _
  · right
    simp only [not_forall, not_exists] at hall
    obtain ⟨q, hq, hnone⟩ := hall
    refine ⟨t.exists_error_of_unnamed fs limit ?_ hnone, t.exists_error_of_unnamed fs limit hq hnone⟩
    rw [hfirst, List.mem_cons, List.mem_append] at hq
    rw [hamong, List.mem_append, List.mem_cons]
    exact or_left_comm.mp hq

end Template

end Stencil
