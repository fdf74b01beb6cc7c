/- The body of a part is cut and parsed alone, when it is shown, as it is in its template. -/
import Stencil.Proofs.Node.Moving
import Stencil.Proofs.Node.Within
import Stencil.Proofs.Segment.Spans
import Stencil.Proofs.Segment.Stretches
import Stencil.Proofs.Splice.Rendering
import Stencil.Proofs.Template.Lookup
import Stencil.Usual

namespace Stencil

/-- Alone, the body has the tokens that stand at its place in the template, and its nodes are those
that were read there. They count bytes and lines from the start of the body. -/
structure PartSite.ReadsAlone (σ : PartSite) (ds : DelimiterSet) (limit : Nat) (tokens : List Token)
    (body : Text) (children : List Node) (bodyLine : Nat) : Prop where
  tokens : ∃ own, tokenize ds body = .ok own ∧
    tokens.filter (Token.liesIn σ.before.byteSize (σ.before ++ body).byteSize) =
      own.map (Token.moved (bodyLine - 1) σ.before.byteSize)
  nodes : ∃ inner, Rendering.nodesOf ds limit true body = .ok inner ∧
    children = nodesMoved (bodyLine - 1) inner

/-- The part of that name can be shown on a line. Its body is cut and parsed, so that only carrying
out the nodes can fail. -/
def Rendering.Shows (r : Rendering) (name : Text) (line : Nat) : Prop :=
  ∃ i inner, r.shown name line = .ok i ∧
    nodesOf r.template.own.delimiters r.limit true i.body = .ok inner ∧
    ∀ budget, r.expand (budget + 1) i =
      r.renderNodes (r.expand budget) (some i.part) i.origin inner

theorem Rendering.expand_of_nodesOf {r : Rendering} {i : Inclusion} {inner : List Node}
    (h : nodesOf r.template.own.delimiters r.limit true i.body = .ok inner) {budget : Nat} :
    r.expand (budget + 1) i = r.renderNodes (r.expand budget) (some i.part) i.origin inner := by
  rw [expand, h]

theorem exists_part_of_mem_definitionsIn {ns : List Node} {d : PartDefinition}
    (hd : d ∈ definitionsIn ns) :
    ∃ children, .part d.name d.body children d.line d.bodyLine ∈ nodesWithin ns := by
  induction ns using nodesInduction with
  | nil => cases hd
  | text t line ns ih => exact (ih hd).imp fun _ => List.mem_append_right _
  | part name body children line bodyLine ns _ ih =>
    rcases List.mem_cons.mp hd with rfl | hd
    · exact ⟨children, List.mem_append_left _ List.mem_cons_self⟩
    · exact (ih hd).imp fun _ => List.mem_append_right _
  | showPart name line ns ih => exact (ih hd).imp fun _ => List.mem_append_right _
  | showParent line ns ih => exact (ih hd).imp fun _ => List.mem_append_right _
  | conditional test yes no line ns hyes hno ih =>
    rcases List.mem_append.mp hd with hd | hd
    · have hbranch : ∃ children, .part d.name d.body children d.line d.bodyLine ∈
          nodesWithin yes ++ nodesWithin no := by
        rcases List.mem_append.mp hd with hd | hd
        · exact (hyes hd).imp fun _ => List.mem_append_left _
        · exact (hno hd).imp fun _ => List.mem_append_right _
      exact hbranch.imp fun _ h => List.mem_append_left _ (List.mem_cons_of_mem _ h)
    · exact (ih hd).imp fun _ => List.mem_append_right _

theorem readsAlone_of_site {ds : DelimiterSet} (hds : ds.Closes) {limit : Nat} {contents : Text}
    {tokens : List Token} {σ : PartSite} (hss : segments ds contents = .ok σ.segments)
    (htokens : tokenize ds contents = .ok tokens) {name : Expr} {body : Text} {line bodyLine : Nat}
    (hσ : σ.Defines [] name body line bodyLine) {room : Nat} {children : List PlacedNode}
    (hroom : room ≤ limit) (hchildren : Items true room σ.before σ.inner children) :
    σ.ReadsAlone ds limit tokens body (PlacedNode.nodes children) bodyLine := by
  have hsplit : σ.segments = (σ.front ++ [σ.opening]) ++ (σ.inner ++ (σ.closing :: σ.rear)) := by
    rw [PartSite.segments, List.append_assoc]
    rfl
  rw [hsplit] at hss
  have hinner : segments ds body = .ok σ.inner := hσ.body ▸ DelimiterSet.segments_stretch hds hss
  have hline : bodyLine - 1 = σ.before.newlines := by
    rw [hσ.bodyLine, List.nil_append, Text.endLine, Nat.add_sub_cancel_left]
  refine ⟨⟨tokensFrom 1 0 σ.inner, by rw [tokenize, hinner]; rfl, ?_⟩, ?_⟩
  · have hdelimited := (DelimiterSet.allFit_of_segmentsFrom hds hss).delimited hds
    have hfilter := filter_tokensFrom hdelimited 1 0
    rw [source_append (σ.front ++ [σ.opening]), ← hσ.body, Nat.zero_add, Nat.zero_add] at hfilter
    rw [tokenize, hss] at htokens
    cases htokens
    rw [hline, ← tokensFrom_moved, Nat.zero_add]
    exact hfilter
  · rw [← List.append_nil σ.before] at hchildren
    obtain ⟨alone, halone, hnodes⟩ := hchildren.exists_moved hroom
    exact ⟨_, nodesOf_of_items hinner halone, by rw [hline, hnodes]⟩

namespace Template

variable {t : Template} {limit : Nat} {contents : Text} {tokens : List Token} {nodes : List Node}

theorem exists_shown_definition {fs : Functions} {parts : List NamedPart}
    (h : nameParts (t.scope fs) (definitionsIn nodes) = (parts, none)) {p : NamedPart}
    (hp : p ∈ parts) (line : Nat) : ∃ d ∈ definitionsIn nodes, ∃ i : Inclusion, i.body = d.body ∧
      ((t.register parts).rendering fs limit parts).shown p.name line = .ok i := by
  have hfound := find?_nameParts h p.name
  cases hd : (definitionsIn nodes).reverse.find?
    fun d => (t.scope fs).nameOf d.name = .ok p.name with
  | none =>
    rw [hd, Option.map_none, List.find?_eq_none] at hfound
    exact absurd (decide_eq_true rfl) (hfound p (List.mem_reverse.mpr hp))
  | some d =>
    rw [hd] at hfound
    have hown : (t.register parts).own.parts.get? p.name = some d.body := by
      rw [get?_register, hfound]
      rfl
    have hmem := List.mem_reverse.mp (List.mem_of_find?_eq_some hd)
    refine ⟨d, hmem, _, rfl, Rendering.shown_eq_ok_iff.mpr ⟨⟨0, d.body⟩, part?_of_own hown, rfl⟩⟩

/-- Where a template was cut and parsed, every part in it is well formed alone: its body has the
tokens and the nodes that it has in place. So showing a part that the template defines never fails
at cutting or parsing the body. -/
theorem readsAlone_of_nodesOf (hds : t.own.delimiters.Closes)
    (htokens : tokenize t.own.delimiters contents = .ok tokens)
    (hnodes : Rendering.nodesOf t.own.delimiters limit false contents = .ok nodes) :
    (∀ name body children line bodyLine,
      .part name body children line bodyLine ∈ nodesWithin nodes →
        ∃ σ : PartSite, source σ.segments = contents ∧ σ.Defines [] name body line bodyLine ∧
          σ.ReadsAlone t.own.delimiters limit tokens body children bodyLine) ∧
    ∀ fs parts, nameParts (t.scope fs) (definitionsIn nodes) = (parts, none) → ∀ p ∈ parts,
      ∀ line, ((t.register parts).rendering fs limit parts).Shows p.name line := by
  obtain ⟨ss, ps, hss, hps, rfl⟩ := nodesOf_eq_ok_iff.mp hnodes
  have hparts : ∀ name body children line bodyLine,
      .part name body children line bodyLine ∈ nodesWithin (PlacedNode.nodes ps) →
        ∃ σ : PartSite, source σ.segments = contents ∧ σ.Defines [] name body line bodyLine ∧
          σ.ReadsAlone t.own.delimiters limit tokens body children bodyLine := by
    intro name body children line bodyLine hpart
    obtain ⟨σ, rfl, hσ, room, qs, hroom, hqs, rfl⟩ := hasSites_of_items hps _ _ _ _ _ hpart
    exact ⟨σ, source_segments hss, hσ,
      readsAlone_of_site hds hss htokens hσ (Nat.le_of_lt hroom) hqs⟩
  refine ⟨hparts, fun fs parts h p hp line => ?_⟩
  obtain ⟨d, hd, i, hi, hshown⟩ := exists_shown_definition h hp line
  obtain ⟨children, hpart⟩ := exists_part_of_mem_definitionsIn hd
  obtain ⟨σ, -, -, -, inner, hinner, -⟩ := hparts _ _ _ _ _ hpart
  rw [← hi, ← delimiters_register parts t] at hinner
  exact ⟨i, inner, hshown, hinner, fun budget => Rendering.expand_of_nodesOf hinner⟩

/-- A sheet that defines one part. A backslash stands in front of the directive that ends it. -/
def sheet : Text := "<% part('x'\n) %>a<% if(2) %>\nb<% endif %>\\<% endpart %>".toList

def sheetBody : Text := "a<% if(2) %>\nb<% endif %>\\".toList

/-- The part of the sheet reads alone as it does in place, and can be shown. -/
theorem readsAlone_of_nodesOf_sheet : ∃ tokens nodes children,
    ({} : DelimiterSet).Closes ∧ tokenize {} sheet = .ok tokens ∧
      Rendering.nodesOf {} 32 false sheet = .ok nodes ∧
      .part (.literal (.text "x".toList)) sheetBody children 1 2 ∈ nodesWithin nodes ∧
      (∃ σ : PartSite, source σ.segments = sheet ∧
        σ.Defines [] (.literal (.text "x".toList)) sheetBody 1 2 ∧
        σ.ReadsAlone {} 32 tokens sheetBody children 2) ∧
      ∃ parts, ((({} : Template).register parts).rendering .usual 32 parts).Shows "x".toList 1 := by
  have hnodes : Rendering.nodesOf {} 32 false sheet = .ok
      [.part (.literal (.text "x".toList)) sheetBody
        [.text "a".toList 2,
          .conditional (.literal (.number (.int 2))) [.text "\nb".toList 2] [] 2,
          .text "\\".toList 3] 1 2] := by
    have hcut : segments {} sheet = .ok
        [.directive "<%".toList " ".toList "part".toList "('x'\n) ".toList "%>".toList,
          .text "a".toList,
          .directive "<%".toList " ".toList "if".toList "(2) ".toList "%>".toList,
          .text "\nb".toList,
          .directive "<%".toList " ".toList "endif".toList " ".toList "%>".toList,
          .text "\\".toList,
          .directive "<%".toList " ".toList "endpart".toList " ".toList "%>".toList] := by
      decide +kernel
    rw [Rendering.nodesOf, hcut]
    rfl
  obtain ⟨ss, -, hss, -⟩ := nodesOf_eq_ok_iff.mp hnodes
  have htokens : tokenize {} sheet = .ok (tokensFrom 1 0 ss) := by rw [tokenize, hss]; rfl
  obtain ⟨hparts, hshown⟩ :=
    readsAlone_of_nodesOf (t := {}) DelimiterSet.closes_usual htokens hnodes
  exact ⟨_, _, _, DelimiterSet.closes_usual, htokens, hnodes, List.mem_cons_self,
    hparts _ _ _ _ _ List.mem_cons_self, _, hshown .usual _ rfl _ List.mem_cons_self 1⟩

end Template

end Stencil
