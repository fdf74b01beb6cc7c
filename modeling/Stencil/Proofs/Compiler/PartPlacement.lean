/- Where a part is defined does not matter. -/
import Stencil.Proofs.Compiler.Inlining
import Stencil.Proofs.Compiler.PartOrder
import Stencil.Proofs.Node.Concatenation

namespace Stencil

/-- The text is one whole part with that name, from its directive to the one that ends it. -/
def DelimiterSet.DefinesPart (ds : DelimiterSet) (d : Text) (name : Expr) : Prop :=
  ∃ opening inner closing, (SegmentTree.part opening name inner closing).Balanced false ∧
    segments ds d = .ok (SegmentTree.part opening name inner closing).leaves

theorem SameNodes.symm {ns ms : List Node} (h : SameNodes ns ms) : SameNodes ms ns :=
  ⟨fun g put part => (h.drawn g put part).symm, h.written.symm⟩

theorem SameNodes.moved (lines : Nat) (ns : List Node) : SameNodes (nodesMoved lines ns) ns := by
  have hmoved := nodeCongruence_sameNodes.moved lines 0 ns
  rwa [nodesMoved_zero] at hmoved

theorem Segment.Names.ne_text {s : Segment} {k : Keyword} (h : s.Names k) (u : Text) :
    s ≠ .text u := by
  rintro rfl
  cases Segment.keyword?_of_names h

theorem joinTexts_of_segments {ds : DelimiterSet} {t : Text} {ss : List Segment}
    (h : segments ds t = .ok ss) : joinTexts ss = ss :=
  joinTexts_of_separated (separated_of_segmentsFrom h)

section Pieces

variable {limit more : Nat} {as bs cs : List Segment} {xs ps ys ks : List Node}

theorem exists_parseNodes_among (hxs : parseNodes limit false as = .ok xs)
    (hps : parseNodes limit false bs = .ok ps) (hys : parseNodes limit false cs = .ok ys) :
    ∃ ns, parseNodes limit false (as ++ (bs ++ cs)) = .ok ns ∧ SameNodes ns (xs ++ (ps ++ ys)) := by
  have hR := nodeCongruence_sameNodes
  refine ⟨_, parseNodes_append hxs (parseNodes_append hps hys), hR.append (hR.refl xs) ?_⟩
  exact hR.trans (.moved _ _) (hR.append (hR.refl ps) (.moved _ ys))

theorem exists_parseNodes_first (hxs : parseNodes limit false as = .ok xs)
    (hps : parseNodes limit false bs = .ok ps) (hys : parseNodes limit false cs = .ok ys) :
    ∃ ns, parseNodes limit false (bs ++ joinTexts (as ++ cs)) = .ok ns ∧
      SameNodes ns (ps ++ (xs ++ ys)) := by
  have hR := nodeCongruence_sameNodes
  obtain ⟨js, hjs, hjoined⟩ := exists_parseNodes_joinTexts hR (parseNodes_append hxs hys)
  refine ⟨_, parseNodes_append hps hjs, hR.append (hR.refl ps) ?_⟩
  have hrest : SameNodes (xs ++ nodesMoved (source as).newlines ys) (xs ++ ys) :=
    hR.append (hR.refl xs) (.moved _ ys)
  exact hR.trans (.moved _ js) (hR.trans hjoined.symm hrest)

/-- Nodes in the middle need no higher limit than the whole. -/
theorem parseNodes_middle (hxs : parseNodes limit false as = .ok xs)
    (hps : parseNodes more false bs = .ok ps)
    (h : parseNodes limit false (as ++ (bs ++ cs)) = .ok ks) :
    parseNodes limit false bs = .ok ps := by
  obtain ⟨ms, hms⟩ := exists_parseNodes_behind hxs h
  exact parseNodes_front hps hms

/-- With room for its blocks, a part is parsed into one node. -/
theorem exists_parseNodes_part {opening closing : Segment} {name : Expr}
    {inner : List SegmentTree}
    (h : (SegmentTree.part opening name inner closing).Balanced false) :
    ∃ more body children line bodyLine,
      parseNodes more false (SegmentTree.part opening name inner closing).leaves =
        .ok [.part name body children line bodyLine] := by
  let tree := SegmentTree.part opening name inner closing
  have hdepth : depthOf [tree] ≤ tree.depth := Nat.max_le.mpr ⟨Nat.le_refl _, Nat.zero_le _⟩
  have hleaves : leavesOf [tree] = tree.leaves := List.append_nil _
  have hparse := parseNodes_eq_ok_iff_trees.mpr ⟨[tree], hleaves, ⟨h, trivial⟩, hdepth, rfl⟩
  exact ⟨_, _, _, _, _, hparse⟩

end Pieces

/-- The segments of a part stay what they are between others, and in front of them. -/
theorem DelimiterSet.DefinesPart.exists_segments {ds : DelimiterSet} {x d y : Text} {name : Expr}
    {as cs : List Segment} (hd : ds.DefinesPart d name) (hx : segments ds x = .ok as)
    (hy : segments ds y = .ok cs) (htokens : ds.TellsApart x d y)
    (htokens' : ds.TellsApart d x y) :
    ∃ bs, (∃ more body children line bodyLine,
        parseNodes more false bs = .ok [.part name body children line bodyLine]) ∧
      segments ds (x ++ (d ++ y)) = .ok (as ++ (bs ++ cs)) ∧
      segments ds (d ++ (x ++ y)) = .ok (bs ++ joinTexts (as ++ cs)) := by
  obtain ⟨opening, inner, closing, hbalanced, hcut⟩ := hd
  have hamong := segments_of_tellsApart htokens hx hcut hy
  have hfirst := segments_of_tellsApart htokens' hcut hx hy
  have hopening := hbalanced.2.1.names.ne_text
  have hclosing := hbalanced.2.2.2.ne_text
  have hbs := joinTexts_of_segments hcut
  refine ⟨_, exists_parseNodes_part hbalanced, hamong.trans ?_, hfirst.trans ?_⟩
  · rw [SegmentTree.leaves] at hbs ⊢
    rw [joinTexts_around hopening hclosing, hbs, joinTexts_of_segments hx,
      joinTexts_of_segments hy]
  · have hempty := joinTexts_around hopening hclosing [] (leavesOf inner) (as ++ cs)
    rw [SegmentTree.leaves] at hbs ⊢
    rw [hbs] at hempty
    exact congrArg Except.ok hempty

namespace Compiler

variable (c : Compiler) (t : Template) {contents : Text}

/-- What cannot be parsed fails. -/
theorem exists_error_of_nodesOf {f : Failure}
    (h : Rendering.nodesOf t.own.delimiters c.limits.directiveDepth false contents = .error f) :
    ∃ e, (c.compileDirectives t contents).2 = .error e := by
  rw [compileDirectives, Template.runDirectives, h]
  exact ⟨f, rfl⟩

/-- Texts whose nodes come to the same do so as well. -/
theorem runsAgree_of_carryOut {contents' : Text} {ns ms : List Node}
    (hns : Rendering.nodesOf t.own.delimiters c.limits.directiveDepth false contents = .ok ns)
    (hms : Rendering.nodesOf t.own.delimiters c.limits.directiveDepth false contents' = .ok ms)
    (h : RunsAgree (t.carryOut c.functions c.limits.directiveDepth ns)
      (t.carryOut c.functions c.limits.directiveDepth ms)) :
    RunsAgree (c.compileDirectives t contents) (c.compileDirectives t contents') := by
  obtain ⟨htemplate, houtcome⟩ := c.compileDirectives_of_nodesOf t hns
  obtain ⟨htemplate', houtcome'⟩ := c.compileDirectives_of_nodesOf t hms
  rcases h with ⟨u, out, hcarried, hcarried'⟩ | ⟨⟨e, he⟩, e', he'⟩
  · left
    rw [hcarried] at htemplate houtcome
    rw [hcarried'] at htemplate' houtcome'
    exact ⟨u, out, Prod.ext htemplate (Outcome.mapError_eq_ok_iff.mp houtcome),
      Prod.ext htemplate' (Outcome.mapError_eq_ok_iff.mp houtcome')⟩
  · right
    exact ⟨Outcome.exists_error_of_mapError (houtcome.trans he),
      Outcome.exists_error_of_mapError (houtcome'.trans he')⟩

/-- A part may be defined anywhere outside blocks, if none of the parts that it passes has its name:
the text and the template come out the same, or both ways fail. -/
theorem part_defined_anywhere (c : Compiler) (t : Template) {x d y : Text} {name : Expr}
    {xs ys : List Node}
    (hx : Rendering.nodesOf t.own.delimiters c.limits.directiveDepth false x = .ok xs)
    (hd : t.own.delimiters.DefinesPart d name)
    (hy : Rendering.nodesOf t.own.delimiters c.limits.directiveDepth false y = .ok ys)
    (htokens : t.own.delimiters.TellsApart x d y) (htokens' : t.own.delimiters.TellsApart d x y)
    (hdistinct : ∀ n, (t.scope c.functions).nameOf name = .ok n →
      ∀ p ∈ definitionsIn xs, (t.scope c.functions).nameOf p.name ≠ .ok n) :
    RunsAgree (c.compileDirectives t (x ++ (d ++ y)))
      (c.compileDirectives t (d ++ (x ++ y))) := by
  let limit := c.limits.directiveDepth
  obtain ⟨as, has, hxs⟩ := exists_segments_of_nodesOf hx
  obtain ⟨cs, hcs, hys⟩ := exists_segments_of_nodesOf hy
  obtain ⟨bs, ⟨more, body, children, line, bodyLine, hpart⟩, hamong, hfirst⟩ :=
    hd.exists_segments has hcs htokens htokens'
  have hamong' := nodesOf_of_segments limit false hamong
  have hfirst' := nodesOf_of_segments limit false hfirst
  cases hparse : parseNodes limit false bs with
  | error f =>
    -- The part is too deep for the limit, wherever it stands.
    right
    constructor
    · cases hwhole : Rendering.nodesOf t.own.delimiters limit false (x ++ (d ++ y)) with
      | error g => exact c.exists_error_of_nodesOf t hwhole
      | ok ns => cases hparse.symm.trans (parseNodes_middle hxs hpart (hamong'.symm.trans hwhole))
    · cases hwhole : Rendering.nodesOf t.own.delimiters limit false (d ++ (x ++ y)) with
      | error g => exact c.exists_error_of_nodesOf t hwhole
      | ok ns => cases hparse.symm.trans (parseNodes_front hpart (hfirst'.symm.trans hwhole))
  | ok ps =>
    obtain ⟨ns, hns, hsame⟩ := exists_parseNodes_among hxs hparse hys
    obtain ⟨ms, hms, hsame'⟩ := exists_parseNodes_first hxs hparse hys
    cases hparse.symm.trans (parseNodes_middle hxs hpart hns)
    refine c.runsAgree_of_carryOut t (hamong'.trans hns) (hfirst'.trans hms) ?_
    rw [t.carryOut_congr c.functions limit hsame, t.carryOut_congr c.functions limit hsame']
    exact t.carryOut_part_moved c.functions limit hdistinct

/-- A part that is shown ahead of its definition comes out the same when it is defined first. One
whose name has no value fails in both places. -/
theorem part_defined_anywhere_shown :
    let c : Compiler := .usual
    let x := "<% part('q') %>b<% endpart %>\n<% show('p') %> ".toList
    let y := " <% show('q') %>".toList
    let named := "<% part('p') %>[<% show('q') %>]<% endpart %>".toList
    let unnamed := "<% part($no) %>a<% endpart %>".toList
    (∀ d ∈ [named, unnamed], RunsAgree (c.compileDirectives {} (x ++ (d ++ y)))
        (c.compileDirectives {} (d ++ (x ++ y)))) ∧
      (c.compileDirectives {} (x ++ (named ++ y))).2 = .ok "\n[b]  b".toList ∧
      (c.compileDirectives {} (named ++ (x ++ y))).2 = .ok "\n[b]  b".toList ∧
      (c.compileDirectives {} (unnamed ++ (x ++ y))).2 =
        .error ⟨.evaluation (.undefinedVariable "no".toList), 1⟩ := by
  intro c x y named unnamed
  let directive (name argument : String) : Segment :=
    .directive "<%".toList " ".toList name.toList argument.toList "%>".toList
  have hpart : (directive "part" "('p') ").Requires .part (.literal (.text "p".toList)) :=
    ⟨"('p')".toList, .mk "<%".toList " ".toList "('p') ".toList "%>".toList, rfl⟩
  have hvariable : (directive "part" "($no) ").Requires .part (.var "no".toList) :=
    ⟨"($no)".toList, .mk "<%".toList " ".toList "($no) ".toList "%>".toList, rfl⟩
  have hshow : (directive "show" "('q') ").Requires .showPart (.literal (.text "q".toList)) :=
    ⟨"('q')".toList, .mk "<%".toList " ".toList "('q') ".toList "%>".toList, rfl⟩
  have hend : (directive "endpart" " ").Names .endPart := Segment.names_iff.mpr rfl
  have hnamed : ({} : DelimiterSet).DefinesPart named (.literal (.text "p".toList)) :=
    ⟨_, [.text (.text "[".toList), .showPart (directive "show" "('q') ") _,
        .text (.text "]".toList)], _,
      ⟨rfl, hpart, ⟨rfl, hshow, rfl, trivial⟩, hend⟩, by decide +kernel⟩
  have hunnamed : ({} : DelimiterSet).DefinesPart unnamed (.var "no".toList) :=
    ⟨_, [.text (.text "a".toList)], _, ⟨rfl, hvariable, ⟨rfl, trivial⟩, hend⟩, by decide +kernel⟩
  obtain ⟨xs, hx⟩ : ∃ xs, Rendering.nodesOf {} 32 false x = .ok xs :=
    Outcome.exists_ok_of_isOk (by decide +kernel)
  obtain ⟨ys, hy⟩ : ∃ ys, Rendering.nodesOf {} 32 false y = .ok ys :=
    Outcome.exists_ok_of_isOk (by decide +kernel)
  have hdistinct : ∀ p ∈ definitionsIn xs,
      (Template.scope {} c.functions).nameOf p.name ≠ .ok "p".toList := by
    have hall : (Rendering.nodesOf {} 32 false x).toOption.all (fun ns => (definitionsIn ns).all
        fun p => (Template.scope {} c.functions).nameOf p.name ≠ .ok "p".toList) = true := by
      decide +kernel
    rw [hx] at hall
    simpa [Except.toOption] using hall
  have hagree : ∀ d ∈ [named, unnamed], RunsAgree (c.compileDirectives {} (x ++ (d ++ y)))
      (c.compileDirectives {} (d ++ (x ++ y))) := by
    refine List.forall_mem_cons.mpr ⟨?_, List.forall_mem_singleton.mpr ?_⟩
    · refine part_defined_anywhere c {} hx hnamed hy ⟨_, _, _, rfl, rfl, rfl, by decide +kernel⟩
        ⟨_, _, _, rfl, rfl, rfl, by decide +kernel⟩ fun n hn => ?_
      cases hn
      exact hdistinct
    · refine part_defined_anywhere c {} hx hunnamed hy ⟨_, _, _, rfl, rfl, rfl, by decide +kernel⟩
        ⟨_, _, _, rfl, rfl, rfl, by decide +kernel⟩ fun n hn => ?_
      cases hn
  refine ⟨hagree, ?_, ?_, ?_⟩
  · decide +kernel
  · decide +kernel
  · decide +kernel

end Compiler

end Stencil
