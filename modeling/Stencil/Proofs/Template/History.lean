/- What templates answer after any history of changes. The values that a template was given last are
read off the history alone, and so are the templates that it stands on, as they were when it was
put on top of them. -/
import Mathlib.Logic.Function.Basic
import Stencil.Proofs.Template.Lookup

namespace Stencil

/-- Names that are set in one of the maps of a template, in order. -/
inductive Entries where
  | tags (pairs : List (Text × Text))
  | vars (pairs : List (Text × Value))
  | parts (pairs : List (Text × Text))

namespace Entries

def tagPairs : Entries → List (Text × Text)
  | .tags pairs => pairs
  | _ => []

def varPairs : Entries → List (Text × Value)
  | .vars pairs => pairs
  | _ => []

def partPairs : Entries → List (Text × Text)
  | .parts pairs => pairs
  | _ => []

def addTo (t : Template) : Entries → Template
  | .tags pairs => t.setTags pairs
  | .vars pairs => t.setVars pairs
  | .parts pairs => t.setParts pairs

end Entries

/-- The templates by their numbers. One that was not made yet is empty. -/
abbrev Workspace := Nat → Template

/-- What can be done to a template. Another one is copied, or made its parent, as it is now. -/
inductive Edit where
  | create (path contents : Text)
  | copy (original : Nat)
  | set (entries : Entries)
  | setParent (parent : Nat)
  | clearParent

def Edit.apply (w : Workspace) (t : Template) : Edit → Template
  | .create path contents => ⟨{ path, contents }, []⟩
  | .copy original => w original
  | .set entries => entries.addTo t
  | .setParent parent => t.setParent (w parent)
  | .clearParent => t.clearParent

structure Operation where
  target : Nat
  edit : Edit

/-- What was done, the latest first. -/
abbrev History := List Operation

namespace History

/-- The templates that a history leaves. -/
def workspace : History → Workspace
  | [] => fun _ => {}
  | op :: earlier =>
    Function.update (workspace earlier) op.target
      (op.edit.apply (workspace earlier) (workspace earlier op.target))

/-- The value that a template was given last for a name, itself or by being copied. -/
def lastSet {α : Type} (pairs : Entries → List (Text × α)) (name : Text) :
    History → Nat → Option α
  | [], _ => none
  | op :: earlier, n =>
    if n = op.target then
      match op.edit with
      | .create _ _ => none
      | .copy original => lastSet pairs name earlier original
      | .set entries =>
        (((pairs entries).reverse.find? fun p => p.1 = name).map Prod.snd).or
          (lastSet pairs name earlier n)
      | .setParent _ => lastSet pairs name earlier n
      | .clearParent => lastSet pairs name earlier n
    else lastSet pairs name earlier n

end History

/-- A template as it was when no more than `history` had happened. -/
structure Version where
  history : History
  number : Nat

namespace Version

def template (v : Version) : Template := v.history.workspace v.number

def lastTag (v : Version) (name : Text) : Option Text :=
  v.history.lastSet Entries.tagPairs name v.number

def lastVar (v : Version) (name : Text) : Option Value :=
  v.history.lastSet Entries.varPairs name v.number

def lastPart (v : Version) (name : Text) : Option Text :=
  v.history.lastSet Entries.partPairs name v.number

end Version

namespace History

/-- The templates that a template stands on, nearest first. -/
def ancestry : History → Nat → List Version
  | [], _ => []
  | op :: earlier, n =>
    if n = op.target then
      match op.edit with
      | .create _ _ => []
      | .copy original => ancestry earlier original
      | .set _ => ancestry earlier n
      | .setParent parent => ⟨earlier, parent⟩ :: ancestry earlier parent
      | .clearParent => []
    else ancestry earlier n

/-- A template and those that it stands on. -/
def lineage (h : History) (n : Nat) : List Version := ⟨h, n⟩ :: h.ancestry n

variable {h earlier : History} {op : Operation} {n : Nat}

theorem workspace_cons_target :
    workspace (op :: earlier) op.target =
      op.edit.apply (workspace earlier) (workspace earlier op.target) :=
  Function.update_self ..

theorem workspace_cons_of_ne (hn : n ≠ op.target) :
    workspace (op :: earlier) n = workspace earlier n :=
  Function.update_of_ne hn ..

/-- Operations on other templates leave a template as it is, whatever these are to it. -/
theorem workspace_append_of_ne {later : History} (hlater : ∀ op ∈ later, n ≠ op.target) :
    workspace (later ++ h) n = workspace h n := by
  induction later with
  | nil => rfl
  | cons op later ih =>
    obtain ⟨hop, hrest⟩ := List.forall_mem_cons.mp hlater
    rw [List.cons_append, workspace_cons_of_ne hop, ih hrest]

end History

namespace Entries

/-- Each kind of entries goes to its own map, and all else stays as it is. -/
theorem addTo_eq (entries : Entries) (t : Template) :
    entries.addTo t = { t with
      own := { t.own with
        tags := t.own.tags.insertAll entries.tagPairs
        vars := t.own.vars.insertAll entries.varPairs
        parts := t.own.parts.insertAll entries.partPairs } } := by
  cases entries with
  | tags pairs => exact Template.setTags_eq pairs t
  | vars pairs => exact Template.setVars_eq pairs t
  | parts pairs => exact Template.setParts_eq pairs t

theorem ancestors_addTo (entries : Entries) (t : Template) :
    (entries.addTo t).ancestors = t.ancestors := by
  rw [addTo_eq]

/-- The map of a layer that entries of one kind go to. -/
structure Feeds {α : Type} (pairs : Entries → List (Text × α)) (field : Layer → Dict α) :
    Prop where
  created : ∀ path contents, field { path, contents } = .empty
  added : ∀ (entries : Entries) (t : Template),
    field (entries.addTo t).own = (field t.own).insertAll (pairs entries)

theorem feeds_tags : Feeds tagPairs Layer.tags :=
  ⟨fun _ _ => rfl, fun entries t => by rw [addTo_eq]⟩

theorem feeds_vars : Feeds varPairs Layer.vars :=
  ⟨fun _ _ => rfl, fun entries t => by rw [addTo_eq]⟩

theorem feeds_parts : Feeds partPairs Layer.parts :=
  ⟨fun _ _ => rfl, fun entries t => by rw [addTo_eq]⟩

end Entries

namespace History

variable {α : Type} {pairs : Entries → List (Text × α)} {field : Layer → Dict α}

/-- A template has of its own what it was given last. -/
theorem get?_own_workspace (hfield : Entries.Feeds pairs field) (h : History) (n : Nat)
    (name : Text) : (field (h.workspace n).own).get? name = h.lastSet pairs name n := by
  induction h generalizing n with
  | nil => exact congrArg (Dict.get? · name) (hfield.created [] [])
  | cons op earlier ih =>
    rw [lastSet]
    split
    next hn =>
      subst hn
      rw [workspace_cons_target]
      cases op.edit with
      | create path contents => exact congrArg (Dict.get? · name) (hfield.created path contents)
      | copy original => exact ih original
      | set entries =>
        have hpairs := Dict.get?_insertAll_map Prod.fst Prod.snd (pairs entries)
          (field (workspace earlier op.target).own) name
        rw [List.map_id'' fun _ => rfl, ih] at hpairs
        rw [Edit.apply, hfield.added, hpairs]
      | setParent parent => exact ih op.target
      | clearParent => exact ih op.target
    next hn => rw [workspace_cons_of_ne hn, ih]

end History

/-- The templates that layers stand for, each with those behind it as its parents. -/
def chainOf : List Layer → List Template
  | [] => []
  | l :: ls => ⟨l, ls⟩ :: chainOf ls

namespace Template

/-- The template, its parent, the parent of that, and so on. -/
def chain (t : Template) : List Template := chainOf t.layers

theorem chain_eq (t : Template) :
    t.chain = t :: (t.parent?.map chain).getD [] := by
  obtain ⟨own, ancestors⟩ := t
  cases ancestors <;> rfl

theorem findSome?_layers {β : Type} (t : Template) (f : Layer → Option β) :
    t.layers.findSome? f = t.chain.findSome? fun u => f u.own := by
  rw [chain]
  induction t.layers with
  | nil => rfl
  | cons l ls ih => rw [chainOf, List.findSome?_cons, List.findSome?_cons, ih]

/-- The template whose own part a name is answered with. -/
def partOwner? (t : Template) (name : Text) : Option Template :=
  (t.part? name).bind fun p => t.chain[p.level]?

theorem partOwner?_eq (t : Template) (name : Text) :
    t.partOwner? name = t.chain.find? fun u => (u.own.parts.get? name).isSome := by
  rw [partOwner?, part?, chain]
  induction t.layers with
  | nil => rfl
  | cons l ls ih =>
    rw [findPart?, chainOf, List.find?_cons]
    cases hown : l.parts.get? name with
    | some body => rfl
    | none =>
      rw [← ih]
      cases findPart? name ls <;> rfl

theorem partOwner?_eq_none_iff (t : Template) (name : Text) :
    t.partOwner? name = none ↔ t.part? name = none := by
  rw [partOwner?_eq, List.find?_eq_none, ← Option.map_eq_none_iff (f := FoundPart.body), part?,
    findPart?_body, findSome?_layers, List.findSome?_eq_none_iff]
  simp

end Template

namespace History

variable {h earlier : History} {n : Nat}

theorem chainOf_ancestors_workspace (h : History) (n : Nat) :
    chainOf (h.workspace n).ancestors = (h.ancestry n).map Version.template := by
  induction h generalizing n with
  | nil => rfl
  | cons op earlier ih =>
    rw [ancestry]
    split
    next hn =>
      subst hn
      rw [workspace_cons_target]
      cases op.edit with
      | create path contents => rfl
      | copy original => exact ih original
      | set entries => rw [Edit.apply, Entries.ancestors_addTo, ih]
      | setParent parent => exact congrArg (workspace earlier parent :: ·) (ih parent)
      | clearParent => rfl
    next hn => rw [workspace_cons_of_ne hn, ih]

/-- The parents of a template are those that it was put on top of, as they were then. -/
theorem chain_workspace (h : History) (n : Nat) :
    (h.workspace n).chain = (h.lineage n).map Version.template :=
  congrArg (h.workspace n :: ·) (h.chainOf_ancestors_workspace n)

/-- The nearest template that was given a value for the name answers for it. -/
theorem findSome?_layers_workspace {α : Type} {pairs : Entries → List (Text × α)}
    {field : Layer → Dict α} (hfield : Entries.Feeds pairs field) (h : History) (n : Nat)
    (name : Text) :
    ((h.workspace n).layers.findSome? fun l => (field l).get? name) =
      (h.lineage n).findSome? fun v => v.history.lastSet pairs name v.number := by
  rw [Template.findSome?_layers, chain_workspace, List.findSome?_map]
  congr 1
  funext v
  exact get?_own_workspace hfield v.history v.number name

/-- Whatever was done to any number of templates, the merged views of each of them agree with its
lookups, which answer with what was set last on the nearest template of its chain that has the name.
The owner of a part is that template. The chain holds the parents as they were when they were set,
so what is done to other templates changes none of this, be they its parents or its children. -/
theorem lookups_of_history (h : History) (n : Nat) (name : Text) :
    let t := h.workspace n
    (t.tags.get? name = t.tag? name ∧ t.vars.get? name = t.var? name ∧
        t.parts.get? name = (t.part? name).map FoundPart.body) ∧
      (t.tag? name = (h.lineage n).findSome? (·.lastTag name) ∧
        t.var? name = (h.lineage n).findSome? (·.lastVar name) ∧
        (t.part? name).map FoundPart.body = (h.lineage n).findSome? (·.lastPart name)) ∧
      (t.chain = (h.lineage n).map Version.template ∧
        (t.partOwner? name = t.chain.find? fun u => (u.own.parts.get? name).isSome) ∧
        (t.partOwner? name = none ↔ t.part? name = none)) ∧
      ∀ later : History, (∀ op ∈ later, n ≠ op.target) → (later ++ h).workspace n = t := by
  intro t
  have hparts : (t.part? name).map FoundPart.body =
      (h.lineage n).findSome? (·.lastPart name) := by
    rw [Template.part?, Template.findPart?_body]
    exact findSome?_layers_workspace Entries.feeds_parts h n name
  refine ⟨⟨t.get?_tags name, t.get?_vars name, t.get?_parts name⟩, ⟨?_, ?_, hparts⟩,
    ⟨h.chain_workspace n, t.partOwner?_eq name, t.partOwner?_eq_none_iff name⟩, ?_⟩
  · exact findSome?_layers_workspace Entries.feeds_tags h n name
  · exact findSome?_layers_workspace Entries.feeds_vars h n name
  · intro later hlater
    exact workspace_append_of_ne hlater

/-- The parent is changed after it was set, and its child is copied. -/
def handedDown : History :=
  [⟨2, .set (.tags [("y".toList, "5".toList)])⟩,
    ⟨2, .copy 1⟩,
    ⟨0, .set (.tags [("x".toList, "3".toList)])⟩,
    ⟨1, .setParent 0⟩,
    ⟨1, .set (.vars [("x".toList, .bool true)])⟩,
    ⟨0, .set (.parts [("x".toList, "a".toList), ("x".toList, "b".toList)])⟩,
    ⟨0, .set (.tags [("x".toList, "1".toList), ("y".toList, "2".toList)])⟩]

/-- The copy keeps the parent as it was, whatever becomes of both originals. -/
theorem lookups_of_history_copied :
    let later : History := [⟨1, .clearParent⟩, ⟨0, .create [] []⟩]
    let t := handedDown.workspace 2
    (∀ op ∈ later, 2 ≠ op.target) ∧ (later ++ handedDown).workspace 2 = t ∧
      t.tags.get? "x".toList = some "1".toList ∧ t.vars.get? "x".toList = some (.bool true) ∧
      t.parts.get? "x".toList = some "b".toList ∧
      t.partOwner? "x".toList = t.chain[1]? ∧ t.tag? "y".toList = some "5".toList := by
  intro later t
  have hothers : ∀ op ∈ later, 2 ≠ op.target := by simp [later]
  obtain ⟨⟨htags, hvars, -⟩, ⟨htag, hvar, hpart⟩, ⟨-, howner, -⟩, hkept⟩ :=
    lookups_of_history handedDown 2 "x".toList
  obtain ⟨-, ⟨hnear, -, -⟩, -, -⟩ := lookups_of_history handedDown 2 "y".toList
  exact ⟨hothers, hkept later hothers, htags.trans (htag.trans rfl), hvars.trans (hvar.trans rfl),
    (t.get?_parts _).trans (hpart.trans rfl), howner.trans rfl, hnear.trans rfl⟩

end History

end Stencil
