/- Naming parts: all of them, where each has a name, and one after the other. -/
import Stencil.Splice.Parts

namespace Stencil

variable {s : Scope} {ds : List PartDefinition} {ps : List NamedPart}

theorem nameParts_cons_of_ok {d : PartDefinition} {name : Text} (hd : s.nameOf d.name = .ok name)
    (ds : List PartDefinition) :
    nameParts s (d :: ds) =
      (⟨name, d.body, d.bodyLine⟩ :: (nameParts s ds).1, (nameParts s ds).2) := by
  rw [nameParts, hd]

/-- Where all parts are named, the first of them is. -/
theorem exists_of_nameParts_cons {d : PartDefinition} (h : nameParts s (d :: ds) = (ps, none)) :
    ∃ name rest, s.nameOf d.name = .ok name ∧ nameParts s ds = (rest, none) ∧
      ps = ⟨name, d.body, d.bodyLine⟩ :: rest := by
  rw [nameParts] at h
  cases hd : s.nameOf d.name with
  | error e =>
    rw [hd] at h
    cases h
  | ok name =>
    rw [hd] at h
    obtain ⟨rfl, hnone⟩ := Prod.mk.inj h
    exact ⟨name, _, rfl, Prod.ext rfl hnone, rfl⟩

/-- The parts can be named if each of them has a name. -/
theorem exists_nameParts_iff : (∃ ps, nameParts s ds = (ps, none)) ↔
    ∀ d ∈ ds, ∃ name, s.nameOf d.name = .ok name := by
  induction ds with
  | nil => exact ⟨fun _ => nofun, fun _ => ⟨[], rfl⟩⟩
  | cons d ds ih =>
    rw [List.forall_mem_cons, ← ih]
    constructor
    · rintro ⟨ps, hps⟩
      obtain ⟨name, rest, hd, hrest, -⟩ := exists_of_nameParts_cons hps
      exact ⟨⟨name, hd⟩, rest, hrest⟩
    · rintro ⟨⟨name, hd⟩, ps, hps⟩
      exact ⟨_, (nameParts_cons_of_ok hd ds).trans (by rw [hps])⟩

/-- Parts that can be named are passed over. -/
theorem nameParts_append (h : nameParts s ds = (ps, none)) (es : List PartDefinition) :
    nameParts s (ds ++ es) = (ps ++ (nameParts s es).1, (nameParts s es).2) := by
  induction ds generalizing ps with
  | nil =>
    cases h
    rfl
  | cons d ds ih =>
    obtain ⟨name, rest, hd, hrest, rfl⟩ := exists_of_nameParts_cons h
    rw [List.cons_append, nameParts_cons_of_ok hd, ih hrest, List.cons_append]

theorem exists_of_mem_nameParts (h : nameParts s ds = (ps, none)) {p : NamedPart} (hp : p ∈ ps) :
    ∃ d ∈ ds, s.nameOf d.name = .ok p.name := by
  induction ds generalizing ps with
  | nil =>
    cases h
    cases hp
  | cons d ds ih =>
    obtain ⟨name, rest, hd, hrest, rfl⟩ := exists_of_nameParts_cons h
    rcases List.mem_cons.mp hp with rfl | hp
    · exact ⟨d, List.mem_cons_self, hd⟩
    · obtain ⟨e, he, hname⟩ := ih hrest hp
      exact ⟨e, List.mem_cons_of_mem d he, hname⟩

/-- The name of a definition whose name was evaluated is that of its part. -/
theorem find?_nameParts (h : nameParts s ds = (ps, none)) (name : Text) :
    (ps.reverse.find? fun p => p.name = name) =
      (ds.reverse.find? fun d => s.nameOf d.name = .ok name).map
        fun d => ⟨name, d.body, d.bodyLine⟩ := by
  induction ds generalizing ps with
  | nil =>
    cases h
    rfl
  | cons d ds ih =>
    obtain ⟨other, rest, hd, hrest, rfl⟩ := exists_of_nameParts_cons h
    rw [List.reverse_cons, List.reverse_cons, List.find?_append, List.find?_append, ih hrest]
    cases ds.reverse.find? fun d => s.nameOf d.name = .ok name with
    | some found => rfl
    | none =>
      by_cases hname : other = name
      · subst hname
        simp [hd]
      · simp [hd, hname]

end Stencil
