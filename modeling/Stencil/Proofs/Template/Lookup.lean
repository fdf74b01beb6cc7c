/- What a template answers for a name, and how registering parts changes it. -/
import Stencil.Proofs.Template.Naming

namespace Stencil

namespace Template

theorem get?_tags (t : Template) (name : Text) : t.tags.get? name = t.tag? name :=
  t.get?_merged Layer.tags name

theorem get?_vars (t : Template) (name : Text) : t.vars.get? name = t.var? name :=
  t.get?_merged Layer.vars name

theorem findPart?_body (name : Text) (ls : List Layer) :
    (findPart? name ls).map FoundPart.body = ls.findSome? (·.parts.get? name) := by
  induction ls with
  | nil => rfl
  | cons l ls ih =>
    rw [findPart?, List.findSome?_cons]
    cases hown : l.parts.get? name with
    | some body => rfl
    | none =>
      rw [← ih, Option.map_map]
      rfl

theorem get?_parts (t : Template) (name : Text) :
    t.parts.get? name = (t.part? name).map FoundPart.body := by
  rw [parts, get?_merged, part?, findPart?_body]

/-- A part that the template has itself is found there. -/
theorem part?_of_own {t : Template} {name body : Text} (h : t.own.parts.get? name = some body) :
    t.part? name = some ⟨0, body⟩ := by
  rw [part?, layers, findPart?, h]

theorem register_eq (ps : List NamedPart) (t : Template) :
    t.register ps = { t with
      own := { t.own with
        parts := t.own.parts.insertAll (ps.map fun p => (p.name, p.body)) } } :=
  setParts_eq _ t

theorem get?_register (ps : List NamedPart) (t : Template) (name : Text) :
    (t.register ps).own.parts.get? name =
      ((ps.reverse.find? fun p => p.name = name).map NamedPart.body).or
        (t.own.parts.get? name) := by
  rw [register_eq, Dict.get?_insertAll_map]

theorem get?_parts_register (ps : List NamedPart) (t : Template) (name : Text) :
    (t.register ps).parts.get? name =
      ((ps.reverse.find? fun p => p.name = name).map NamedPart.body).or (t.parts.get? name) := by
  have hancestors : (t.register ps).ancestors = t.ancestors := by rw [register_eq]
  rw [parts, parts, get?_merged, get?_merged, layers, layers, hancestors, List.findSome?_cons,
    List.findSome?_cons, get?_register]
  cases ps.reverse.find? fun p => p.name = name with
  | some p => rfl
  | none => rfl

@[simp] theorem delimiters_register (ps : List NamedPart) (t : Template) :
    (t.register ps).own.delimiters = t.own.delimiters := by
  rw [register_eq]

@[simp] theorem tag?_register (ps : List NamedPart) (t : Template) :
    (t.register ps).tag? = t.tag? := by
  rw [register_eq]
  rfl

@[simp] theorem var?_register (ps : List NamedPart) (t : Template) :
    (t.register ps).var? = t.var? := by
  rw [register_eq]
  rfl

@[simp] theorem scope_register (ps : List NamedPart) (t : Template) (fs : Functions) :
    (t.register ps).scope fs = t.scope fs := by
  rw [scope, scope, tag?_register, var?_register]

end Template

end Stencil
