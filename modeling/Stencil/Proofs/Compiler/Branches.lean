/- A further condition of a chain may as well stand in an `else` of its own. -/
import Stencil.Proofs.Compiler.Outcomes
import Stencil.Proofs.Node.Replacement

namespace Stencil

/-- The second tree has an `else` and a condition within it where the first has an `elseif`. What
follows the condition is the same. -/
inductive SegmentTree.ElseIfNested : SegmentTree → SegmentTree → Prop
  | mk {opening turn other inner closing : Segment} {a b : Expr} {xs ys : List SegmentTree}
      {rest : BranchTree} : other.Names .otherwise → inner.Requires .ifThen b →
      closing.Names .endIf →
      ElseIfNested (.conditional opening a xs (.elseIf turn b ys rest))
        (.conditional opening a xs (.otherwise other [.conditional inner b ys rest] closing))

namespace SegmentTree.ElseIfNested

variable {chain nested : SegmentTree} {inPart : Bool}

theorem balanced (h : chain.ElseIfNested nested) (hchain : chain.Balanced inPart) :
    nested.Balanced inPart := by
  cases h with
  | mk hother hinner hclosing =>
    obtain ⟨hopening, hxs, -, hys, hrest⟩ := hchain
    exact ⟨hopening, hxs, hother, ⟨⟨hinner, hys, hrest⟩, trivial⟩, hclosing⟩

/-- The nodes differ in their lines only. -/
theorem like {R : List Node → List Node → Prop} (hR : NodeCongruence R)
    (h : chain.ElseIfNested nested) (w : Text) :
    R [(chain.placed w).node] [(nested.placed w).node] := by
  cases h with
  | mk _ _ _ =>
    apply hR.conditional
    · exact hR.refl _
    · apply hR.conditional
      · exact hR.trees _ _ _
      · exact hR.branches _ _ _

end SegmentTree.ElseIfNested

namespace Compiler

/-- An `elseif` outside parts is an `if` inside of an `else`: where both sources can be parsed, the
parts on the template are the same, and so is the text, or else the cause of the failure. -/
theorem elseIf_eq_nested (c : Compiler) (t : Template) {chain nested : SegmentTree}
    {before after : List Segment} {contents contents' : Text} {ns ms : List Node}
    (hchain : chain.Balanced false) (hnested : chain.ElseIfNested nested)
    (houtside : ClosesParts before)
    (hcut : segments t.own.delimiters contents = .ok (before ++ (chain.leaves ++ after)))
    (hcut' : segments t.own.delimiters contents' = .ok (before ++ (nested.leaves ++ after)))
    (hns : Rendering.nodesOf t.own.delimiters c.limits.directiveDepth false contents = .ok ns)
    (hms : Rendering.nodesOf t.own.delimiters c.limits.directiveDepth false contents' = .ok ms) :
    (c.compileDirectives t contents').1 = (c.compileDirectives t contents).1 ∧
      (c.compileDirectives t contents').2.mapError Failure.cause =
        (c.compileDirectives t contents).2.mapError Failure.cause := by
  have hparse : parseNodes c.limits.directiveDepth false (before ++ (chain.leaves ++ after)) =
      .ok ns := by
    rwa [nodesOf_of_segments _ _ hcut] at hns
  have hparse' : parseNodes c.limits.directiveDepth false (before ++ (nested.leaves ++ after)) =
      .ok ms := by
    rwa [nodesOf_of_segments _ _ hcut'] at hms
  have hsame : SameNodes ns ms :=
    parseNodes_replaced nodeCongruence_sameNodes hchain (hnested.balanced hchain)
      (hnested.like nodeCongruence_sameNodes) houtside hparse hparse'
  have hcarried := t.carryOut_congr c.functions c.limits.directiveDepth hsame
  obtain ⟨htemplate, houtcome⟩ := c.compileDirectives_of_nodesOf t hns
  obtain ⟨htemplate', houtcome'⟩ := c.compileDirectives_of_nodesOf t hms
  constructor
  · rw [htemplate, htemplate', hcarried]
  · rw [houtcome, houtcome', hcarried]

/-- A template with a variable that is true. -/
def lit : Template := { own := { vars := .ofList [("on".toList, .bool true)] } }

/-- With the variable, both pages show the part that is written in the second branch. Without it,
the condition has no value, which both pages report, one of them a line further down. -/
theorem elseIf_eq_nested_lit :
    let c : Compiler := .usual
    let tail := "<% part('p') %>b<% endpart %><% else %>c<% endif %>".toList
    let page := "<% if(false) %>a<% elseif($on) %>".toList ++ (tail ++ "<% show('p') %>".toList)
    let page' := "<% if(false) %>a<% else\n%><% if($on) %>".toList ++
      (tail ++ "<% endif %><% show('p') %>".toList)
    let missing : Cause := .evaluation (.undefinedVariable "on".toList)
    (∀ t ∈ [lit, {}], (c.compileDirectives t page').1 = (c.compileDirectives t page).1 ∧
        (c.compileDirectives t page').2.mapError Failure.cause =
          (c.compileDirectives t page).2.mapError Failure.cause) ∧
      (c.compileDirectives lit page).2 = .ok "b".toList ∧
      (c.compileDirectives lit page').2 = .ok "b".toList ∧
      (c.compileDirectives {} page).2 = .error ⟨missing, 1⟩ ∧
      (c.compileDirectives {} page').2 = .error ⟨missing, 2⟩ := by
  intro c tail page page' missing
  let directive (name argument : String) : Segment :=
    .directive "<%".toList " ".toList name.toList argument.toList "%>".toList
  let endif := directive "endif" " "
  let shown := directive "show" "('p') "
  let other : Segment := .directive "<%".toList " ".toList "else".toList "\n".toList "%>".toList
  let ys : List SegmentTree := [.part (directive "part" "('p') ") (.literal (.text "p".toList))
    [.text (.text "b".toList)] (directive "endpart" " ")]
  let rest : BranchTree := .otherwise (directive "else" " ") [.text (.text "c".toList)] endif
  let no : Expr := .literal (.bool false)
  let on : Expr := .var "on".toList
  have hif : (directive "if" "(false) ").Requires .ifThen no :=
    ⟨"(false)".toList, .mk "<%".toList " ".toList "(false) ".toList "%>".toList, rfl⟩
  have hturn : (directive "elseif" "($on) ").Requires .elseIf on :=
    ⟨"($on)".toList, .mk "<%".toList " ".toList "($on) ".toList "%>".toList, rfl⟩
  have hinner : (directive "if" "($on) ").Requires .ifThen on :=
    ⟨"($on)".toList, .mk "<%".toList " ".toList "($on) ".toList "%>".toList, rfl⟩
  have hpart : (directive "part" "('p') ").Requires .part (.literal (.text "p".toList)) :=
    ⟨"('p')".toList, .mk "<%".toList " ".toList "('p') ".toList "%>".toList, rfl⟩
  have hendif : endif.Names .endIf := Segment.names_iff.mpr rfl
  have hys : AllBalanced false ys :=
    ⟨⟨rfl, hpart, ⟨rfl, trivial⟩, Segment.names_iff.mpr rfl⟩, trivial⟩
  have hrest : rest.Balanced false := ⟨Segment.names_iff.mpr rfl, ⟨rfl, trivial⟩, hendif⟩
  let xs : List SegmentTree := [.text (.text "a".toList)]
  let chain : SegmentTree := .conditional (directive "if" "(false) ") no xs
    (.elseIf (directive "elseif" "($on) ") on ys rest)
  let nested : SegmentTree := .conditional (directive "if" "(false) ") no xs
    (.otherwise other [.conditional (directive "if" "($on) ") on ys rest] endif)
  have hchain : chain.Balanced false := ⟨hif, ⟨rfl, trivial⟩, hturn, hys, hrest⟩
  have hnested : chain.ElseIfNested nested :=
    .mk (Segment.names_iff.mpr rfl) hinner hendif
  have hcut : segments {} page = .ok ([] ++ (chain.leaves ++ [shown])) := by decide +kernel
  have hcut' : segments {} page' = .ok ([] ++ (nested.leaves ++ [shown])) := by decide +kernel
  obtain ⟨ns, hns⟩ : ∃ ns, Rendering.nodesOf {} 32 false page = .ok ns :=
    Outcome.exists_ok_of_isOk (by decide +kernel)
  obtain ⟨ms, hms⟩ : ∃ ms, Rendering.nodesOf {} 32 false page' = .ok ms :=
    Outcome.exists_ok_of_isOk (by decide +kernel)
  have hagree : ∀ t ∈ [lit, {}], (c.compileDirectives t page').1 = (c.compileDirectives t page).1 ∧
      (c.compileDirectives t page').2.mapError Failure.cause =
        (c.compileDirectives t page).2.mapError Failure.cause := by
    refine List.forall_mem_cons.mpr ⟨?_, List.forall_mem_singleton.mpr ?_⟩
    · exact elseIf_eq_nested c lit hchain hnested closesParts_nil hcut hcut' hns hms
    · exact elseIf_eq_nested c {} hchain hnested closesParts_nil hcut hcut' hns hms
  refine ⟨hagree, ?_, ?_, ?_, ?_⟩
  · decide +kernel
  · decide +kernel
  · decide +kernel
  · decide +kernel

end Compiler

end Stencil
