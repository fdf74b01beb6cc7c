/- The parts that a template defines are those that are written in it, in every branch. -/
import Stencil.Proofs.Node.Balance
import Stencil.Proofs.Node.Placement

namespace Stencil

namespace Segment

/-- What a directive is, by its name. -/
def keyword? : Segment → Option Keyword
  | .directive _ _ name _ _ => Keyword.ofName? name
  | _ => none

/-- The expression behind the name of a directive. -/
def argument? : Segment → Option Expr
  | .directive _ _ _ argument _ => (expression? argument).bind fun x => (Expr.parse x).toOption
  | _ => none

variable {s : Segment} {k : Keyword} {e : Expr}

theorem keyword?_of_names (h : s.Names k) : s.keyword? = some k := by
  obtain ⟨_, opening, lead, argument, closing⟩ := h
  exact Keyword.ofName?_spelling k

theorem names_iff : s.Names k ↔ s.keyword? = some k := by
  refine ⟨keyword?_of_names, fun h => ?_⟩
  cases s with
  | directive opening lead name argument closing => exact ⟨_, directs_of_ofName? h⟩
  | _ => cases h

theorem keyword?_of_isDirective (h : s.isDirective = false) : s.keyword? = none := by
  cases s with
  | directive opening lead name argument closing => cases h
  | text t => rfl
  | escapedOpening opening => rfl
  | tag kind opening body closing => rfl

theorem argument?_of_requires (h : s.Requires k e) : s.argument? = some e := by
  obtain ⟨x, hs, hparse⟩ := h
  generalize hx : some x = y at hs
  obtain ⟨opening, lead, argument, closing⟩ := hs
  rw [argument?, ← hx, Option.bind_some, hparse]
  rfl

/-- The segment neither starts nor ends a part. -/
def StaysInside (s : Segment) : Prop := s.keyword? ≠ some .part ∧ s.keyword? ≠ some .endPart

theorem staysInside_of_names (h : s.Names k) (hk : k ≠ .part ∧ k ≠ .endPart) :
    s.StaysInside := by
  rw [StaysInside, keyword?_of_names h]
  exact hk.imp (mt Option.some.inj) (mt Option.some.inj)

theorem staysInside_of_isDirective (h : s.isDirective = false) : s.StaysInside := by
  rw [StaysInside, keyword?_of_isDirective h]
  exact ⟨nofun, nofun⟩

end Segment

/-- A part as it is written: the argument of its directive, and what follows that. -/
structure WrittenPart where
  name : Expr
  body : Text

/-- The parts that are written in segments. The body of each is the source up to the directive that
ends a part. -/
def writtenParts : List Segment → List WrittenPart
  | [] => []
  | s :: ss =>
    if s.keyword? = some .part then
      let body := source (ss.takeWhile fun x => x.keyword? ≠ some .endPart)
      (s.argument?.map fun name => ⟨name, body⟩).toList ++ writtenParts ss
    else writtenParts ss

variable {s : Segment} {ss rest : List Segment}

theorem writtenParts_cons_of_ne (h : s.keyword? ≠ some .part) :
    writtenParts (s :: ss) = writtenParts ss := by
  rw [writtenParts, if_neg h]

theorem writtenParts_append_of_ne (h : ∀ s ∈ ss, s.keyword? ≠ some .part) :
    writtenParts (ss ++ rest) = writtenParts rest := by
  induction ss with
  | nil => rfl
  | cons s ss ih =>
    obtain ⟨hs, hss⟩ := List.forall_mem_cons.mp h
    rw [List.cons_append, writtenParts_cons_of_ne hs, ih hss]

/-- A part is written once, whatever follows it. -/
theorem writtenParts_part {close : Segment} {name : Expr} (hs : s.Requires .part name)
    (hss : ∀ x ∈ ss, x.StaysInside) (hclose : close.Names .endPart) :
    writtenParts (s :: (ss ++ [close]) ++ rest) = ⟨name, source ss⟩ :: writtenParts rest := by
  have hend : close.keyword? = some .endPart := Segment.keyword?_of_names hclose
  have hbody : (ss ++ close :: rest).takeWhile (fun x => x.keyword? ≠ some .endPart) = ss := by
    rw [List.takeWhile_append_of_pos fun x hx => decide_eq_true (hss x hx).2,
      List.takeWhile_cons_of_neg (by simp [hend]), List.append_nil]
  have hlast : writtenParts (close :: rest) = writtenParts rest :=
    writtenParts_cons_of_ne (by simp [hend])
  rw [List.cons_append, List.append_assoc, List.singleton_append, writtenParts,
    if_pos (Segment.keyword?_of_names hs.names), Segment.argument?_of_requires hs, hbody,
    writtenParts_append_of_ne fun x hx => (hss x hx).1, hlast]
  rfl

/-- Nothing within a part starts or ends one. -/
theorem staysInside_of_items {inPart : Bool} {room : Nat} {before : Text} {ps : List PlacedNode}
    (h : Items inPart room before ss ps) : inPart = true → ∀ s ∈ ss, s.StaysInside := by
  induction h using Items.rec
    (motive_2 := fun inPart _ _ _ _ ss _ _ => inPart = true → ∀ s ∈ ss, s.StaysInside) with
  | nil => exact fun _ _ hs => absurd hs List.not_mem_nil
  | text hs _ ih =>
    intro hpart
    exact List.forall_mem_cons.mpr ⟨Segment.staysInside_of_isDirective hs, ih hpart⟩
  | showPart hs _ ih =>
    intro hpart
    have hhead := Segment.staysInside_of_names hs.names (by decide)
    exact List.forall_mem_cons.mpr ⟨hhead, ih hpart⟩
  | showParent hs _ _ ih =>
    intro hpart
    have hhead := Segment.staysInside_of_names ⟨_, hs⟩ (by decide)
    exact List.forall_mem_cons.mpr ⟨hhead, ih hpart⟩
  | part =>
    intro hpart
    cases hpart
  | conditional hs _ _ ihchain ih =>
    intro hpart
    have hhead := Segment.staysInside_of_names hs.names (by decide)
    exact List.forall_mem_cons.mpr
      ⟨hhead, List.forall_mem_append.mpr ⟨ihchain hpart, ih hpart⟩⟩
  | close _ hs ih hpart s hmem =>
    have hlast := Segment.staysInside_of_names hs (by decide)
    have hall := List.forall_mem_append.mpr ⟨ih hpart, List.forall_mem_singleton.mpr hlast⟩
    exact hall s hmem
  | otherwise _ hs _ hclose ihyes ihno hpart s hmem =>
    have hturn := Segment.staysInside_of_names hs (by decide)
    have hlast := Segment.staysInside_of_names hclose (by decide)
    have hno := List.forall_mem_append.mpr ⟨ihno hpart, List.forall_mem_singleton.mpr hlast⟩
    have hall := List.forall_mem_append.mpr
      ⟨ihyes hpart, List.forall_mem_cons.mpr ⟨hturn, hno⟩⟩
    exact hall s hmem
  | elseIf _ hs _ ih ihchain hpart s hmem =>
    have hturn := Segment.staysInside_of_names hs.names (by decide)
    have hall := List.forall_mem_append.mpr
      ⟨ih hpart, List.forall_mem_cons.mpr ⟨hturn, ihchain hpart⟩⟩
    exact hall s hmem

def PlacedDefinition.written (d : PlacedDefinition) : WrittenPart := ⟨d.name, d.body⟩

/-- The nodes define what is written in their segments. -/
theorem writtenParts_of_items {inPart : Bool} {room : Nat} {before : Text} {ps : List PlacedNode}
    (h : Items inPart room before ss ps) : ∀ rest, writtenParts (ss ++ rest) =
      (PlacedNode.definitionsOf ps).map PlacedDefinition.written ++ writtenParts rest := by
  induction h using Items.rec
    (motive_2 := fun _ _ _ _ _ ss p _ => ∀ rest, writtenParts (ss ++ rest) =
      p.definitions.map PlacedDefinition.written ++ writtenParts rest) with
  | nil => exact fun _ => rfl
  | text hs _ ih =>
    intro rest
    rw [List.cons_append, writtenParts_cons_of_ne (Segment.staysInside_of_isDirective hs).1, ih]
    rfl
  | showPart hs _ ih =>
    intro rest
    have hhead := Segment.staysInside_of_names hs.names (by decide)
    rw [List.cons_append, writtenParts_cons_of_ne hhead.1, ih]
    rfl
  | showParent hs _ _ ih =>
    intro rest
    have hhead := Segment.staysInside_of_names ⟨_, hs⟩ (by decide)
    rw [List.cons_append, writtenParts_cons_of_ne hhead.1, ih]
    rfl
  | part hs hchildren hclose _ _ ih =>
    intro rest
    rw [List.append_assoc, writtenParts_part hs (staysInside_of_items hchildren rfl) hclose, ih]
    rfl
  | conditional hs _ _ ihchain ih =>
    intro rest
    have hhead := Segment.staysInside_of_names hs.names (by decide)
    rw [List.append_assoc, List.cons_append, writtenParts_cons_of_ne hhead.1, ihchain, ih,
      PlacedNode.definitionsOf, List.map_append, List.append_assoc]
  | close _ hs ih rest =>
    have hlast := Segment.staysInside_of_names hs (by decide)
    rw [List.append_assoc, ih, List.singleton_append, writtenParts_cons_of_ne hlast.1,
      PlacedNode.definitions, PlacedNode.definitionsOf, List.append_nil]
  | otherwise _ hs _ hclose ihyes ihno rest =>
    have hturn := Segment.staysInside_of_names hs (by decide)
    have hlast := Segment.staysInside_of_names hclose (by decide)
    rw [List.append_assoc, ihyes, List.cons_append, writtenParts_cons_of_ne hturn.1,
      List.append_assoc, ihno, List.singleton_append, writtenParts_cons_of_ne hlast.1,
      PlacedNode.definitions, List.map_append, List.append_assoc]
  | elseIf _ hs _ ih ihchain rest =>
    have hturn := Segment.staysInside_of_names hs.names (by decide)
    rw [List.append_assoc, ih, List.cons_append, writtenParts_cons_of_ne hturn.1, ihchain,
      PlacedNode.definitions, PlacedNode.definitionsOf, PlacedNode.definitionsOf, List.append_nil,
      List.map_append, List.append_assoc]

def PartDefinition.written (d : PartDefinition) : WrittenPart := ⟨d.name, d.body⟩

/-- The parts that are registered are those that are written, in that order. -/
theorem written_definitionsIn {limit : Nat} {inPart : Bool} {ns : List Node}
    (h : parseNodes limit inPart ss = .ok ns) :
    (definitionsIn ns).map PartDefinition.written = writtenParts ss := by
  obtain ⟨ps, hps, rfl⟩ := parseNodes_eq_ok_iff.mp h
  have hwritten := writtenParts_of_items hps []
  rw [List.append_nil, writtenParts, List.append_nil] at hwritten
  rw [hwritten, PlacedNode.definitionsIn_nodes, List.map_map]
  rfl

end Stencil
