/- To show a part is to have its body written in place of the directive. -/
import Stencil.Proofs.Compiler.Limits
import Stencil.Proofs.Compiler.Registration
import Stencil.Proofs.Segment.Boundaries
import Stencil.Proofs.Splice.Inlining

namespace Stencil

/-- The tokens of three texts behind each other are the tokens of each, put together. -/
def DelimiterSet.TellsApart (ds : DelimiterSet) (a b c : Text) : Prop :=
  ∃ front inner rear, tokenize ds a = .ok front ∧ tokenize ds b = .ok inner ∧
    tokenize ds c = .ok rear ∧ tokenize ds (a ++ (b ++ c)) =
      .ok (front ++ (inner.map (Token.moved a.newlines a.byteSize) ++
        rear.map (Token.moved (a ++ b).newlines (a ++ b).byteSize)))

/-- The segments of three texts that are told apart are those of each, put together. -/
theorem segments_of_tellsApart {ds : DelimiterSet} {a b c : Text} {xs ys zs : List Segment}
    (h : ds.TellsApart a b c) (ha : segments ds a = .ok xs) (hb : segments ds b = .ok ys)
    (hc : segments ds c = .ok zs) :
    segments ds (a ++ (b ++ c)) = .ok (joinTexts (xs ++ (ys ++ zs))) := by
  obtain ⟨front, inner, rear, hfront, hinner, hrear, hwhole⟩ := h
  rw [tokenize, ha] at hfront
  rw [tokenize, hb] at hinner
  rw [tokenize, hc] at hrear
  cases hfront
  cases hinner
  cases hrear
  have hne : ∀ s ∈ xs ++ (ys ++ zs), s.raw ≠ [] :=
    List.forall_mem_append.mpr ⟨raw_ne_nil_of_segmentsFrom ha,
      List.forall_mem_append.mpr
        ⟨raw_ne_nil_of_segmentsFrom hb, raw_ne_nil_of_segmentsFrom hc⟩⟩
  obtain rfl := source_segments ha
  obtain rfl := source_segments hb
  obtain rfl := source_segments hc
  have hsource : source (xs ++ (ys ++ zs)) = source xs ++ (source ys ++ source zs) := by
    rw [source_append, source_append]
  rw [← hsource] at hwhole ⊢
  refine segments_eq_joinTexts ?_ hne
  rw [hwhole, tokensFrom_append, tokensFrom_append, ← tokensFrom_moved, ← tokensFrom_moved,
    Text.newlines_append, Text.byteSize_append, Nat.add_assoc, Nat.add_assoc]

/-- Segments in place of another one, where the tokens of the whole are those of its stretches. -/
theorem segments_inlined {ds : DelimiterSet} {before after ss : List Segment} {s : Segment}
    {body : Text}
    (hcut : segments ds (source before ++ (s.raw ++ source after)) = .ok (before ++ s :: after))
    (hs : ∀ u, s ≠ .text u) (hbody : segments ds body = .ok ss)
    (htokens : ds.TellsApart (source before) body (source after)) :
    segments ds (source before ++ (body ++ source after)) =
      .ok (joinTexts (before ++ (ss ++ after))) := by
  have ⟨_, _, _, hfront, _⟩ := htokens
  obtain ⟨xs, hxs, -⟩ := Outcome.map_eq_ok_iff.mp hfront
  obtain rfl : before = xs := (segmentsFrom_front hs hcut rfl hxs).symm
  exact segments_of_tellsApart htokens hxs hbody (segmentsFrom_rear hs hcut 1)

namespace Compiler

/-- The setting of nodes with those parts, where `limit` bodies may be put into each other. -/
def setting (c : Compiler) (t : Template) (parts : List NamedPart) (limit : Nat) : Setting :=
  ⟨t.register parts, t.scope c.functions, limit⟩

/-- The contents can be parsed into the nodes, which define those parts. -/
structure Reads (c : Compiler) (t : Template) (limit : Nat) (contents : Text) (nodes : List Node)
    (parts : List NamedPart) : Prop where
  parsed : Rendering.nodesOf t.own.delimiters limit false contents = .ok nodes
  named : nameParts (t.scope c.functions) (definitionsIn nodes) = (parts, none)

variable {c : Compiler} {t : Template} {contents out : Text} {limit : Nat} {nodes : List Node}
  {parts : List NamedPart}

theorem Reads.template_eq (h : c.Reads t c.limits.directiveDepth contents nodes parts) :
    (c.compileDirectives t contents).1 = t.register parts := by
  rw [template_compileDirectives, Template.runDirectives_of_named h.parsed h.named]

/-- What came of the directives is what the nodes are drawn as. -/
theorem Reads.eq_ok_iff (h : c.Reads t c.limits.directiveDepth contents nodes parts) :
    let g := c.setting t parts c.limits.directiveDepth
    (c.compileDirectives t contents).2 = .ok out ↔
      g.drawNodes (g.drawBody g.limit) none nodes = .ok out := by
  let r := (t.register parts).rendering c.functions c.limits.directiveDepth parts
  have houtcome : (r.render nodes).map Splice.text = .ok out ↔
      Rendering.outcome (r.render nodes) = .ok out :=
    Outcome.mapError_eq_ok_iff.symm
  rw [Rendering.outcome_render, Template.setting_rendering] at houtcome
  rw [compileDirectives, Template.runDirectives_of_named h.parsed h.named]
  exact houtcome

theorem exists_reads_of_ok (h : (c.compileDirectives t contents).2 = .ok out) :
    ∃ nodes parts, c.Reads t c.limits.directiveDepth contents nodes parts := by
  rw [compileDirectives] at h
  cases hnodes : Rendering.nodesOf t.own.delimiters c.limits.directiveDepth false contents with
  | error f =>
    rw [Template.runDirectives, hnodes] at h
    cases h
  | ok nodes =>
    cases hparts : nameParts (t.scope c.functions) (definitionsIn nodes) with
    | mk parts failure =>
      cases failure with
      | some f =>
        rw [Template.runDirectives_of_unnamed hnodes hparts] at h
        cases h
      | none => exact ⟨nodes, parts, hnodes, hparts⟩

/-- Contents that came to a text come to it with a higher limit. -/
theorem exists_drawn_of_le (hlimit : c.limits.directiveDepth ≤ limit)
    (h : (c.compileDirectives t contents).2 = .ok out) :
    ∃ nodes parts, c.Reads t c.limits.directiveDepth contents nodes parts ∧
      let g := c.setting t parts limit
      g.drawNodes (g.drawBody limit) none nodes = .ok out := by
  let more : Limits := { c.limits with directiveDepth := limit }
  obtain ⟨nodes, parts, hreads⟩ := exists_reads_of_ok h
  have hmore : ((c.withLimits more).compileDirectives t contents).2 = .ok out := by
    rcases @keptUnless_compileDirectives c more hlimit t contents with heq | ⟨f, hf, -⟩
    · rw [heq, h]
    · cases h.symm.trans hf
  have hparsed := (Rendering.keptUnless_nodesOf hlimit t.own.delimiters false contents).eq_ok
    hreads.parsed
  have hreads' : (c.withLimits more).Reads t limit contents nodes parts := ⟨hparsed, hreads.named⟩
  exact ⟨nodes, parts, hreads, hreads'.eq_ok_iff.mp hmore⟩

/-- What contents come to with a higher limit they come to, unless they run into the limit. -/
theorem ok_or_limit_of_drawn (hlimit : c.limits.directiveDepth ≤ limit)
    (hreads : c.Reads t limit contents nodes parts)
    (h : (c.setting t parts limit).drawNodes ((c.setting t parts limit).drawBody limit) none nodes =
      .ok out) :
    (c.compileDirectives t contents).2 = .ok out ∨
      ∃ f, (c.compileDirectives t contents).2 = .error f ∧ f.IsLimit := by
  let more : Limits := { c.limits with directiveDepth := limit }
  have hreads' : (c.withLimits more).Reads t limit contents nodes parts :=
    ⟨hreads.parsed, hreads.named⟩
  have hmore : ((c.withLimits more).compileDirectives t contents).2 = .ok out :=
    hreads'.eq_ok_iff.mpr h
  refine (@keptUnless_compileDirectives c more hlimit t contents).imp_left fun heq => ?_
  rw [← heq, hmore]

/-- A part that is shown outside parts may as well be written there, if its body can be parsed on
its own and holds no `parent`, and if no opening comes about where the body meets what stands around
it. Where the contents came to a text with the directive, they come to the same one with the body.
Only a limit can be in the way, since the body may stand inside blocks. -/
theorem show_inlined (c : Compiler) (t : Template) {before after ss : List Segment} {s : Segment}
    {e : Expr} {name out : Text} {p : FoundPart} {nodes : List Node}
    (hcut : segments t.own.delimiters (source before ++ (s.raw ++ source after)) =
      .ok (before ++ s :: after))
    (hs : s.Requires .showPart e) (houtside : ClosesParts before)
    (hname : (t.scope c.functions).nameOf e = .ok name)
    (hpart : (c.compileDirectives t
      (source before ++ (s.raw ++ source after))).1.part? name = some p)
    (hbody : segments t.own.delimiters p.body = .ok ss)
    (hnodes : parseNodes c.limits.directiveDepth true ss = .ok nodes)
    (hparent : ∀ x ∈ ss, ¬ x.Names .parent)
    (htokens : t.own.delimiters.TellsApart (source before) p.body (source after))
    (hout : (c.compileDirectives t (source before ++ (s.raw ++ source after))).2 = .ok out) :
    (c.compileDirectives t (source before ++ (p.body ++ source after))).2 = .ok out ∨
      ∃ f, (c.compileDirectives t (source before ++ (p.body ++ source after))).2 = .error f ∧
        f.cause.kind = .recursionLimit := by
  have hjoined : segments t.own.delimiters (source before ++ (p.body ++ source after)) =
      .ok (joinTexts (before ++ (ss ++ after))) := by
    refine segments_inlined hcut (fun u hu => ?_) hbody htokens
    have hkeyword := Segment.keyword?_of_names hs.names
    rw [hu] at hkeyword
    cases hkeyword
  -- With twice the limit there is room for the blocks of the body within those around it.
  let limit := c.limits.directiveDepth
  have hlimit : limit ≤ limit + limit := Nat.le_add_right limit limit
  obtain ⟨ns, parts, hreads, hdrawn⟩ := exists_drawn_of_le hlimit hout
  let g := c.setting t parts (limit + limit)
  have hshown : g.template.part? name = some p := by
    rw [hreads.template_eq] at hpart
    exact hpart
  have hcutBody : segments g.template.own.delimiters p.body = .ok ss := by
    rw [← hbody]
    exact congrArg (segments · p.body) (Template.delimiters_register parts t)
  have hinner : parseNodes g.limit true ss = .ok nodes :=
    (keptUnless_parseNodes hlimit true ss).eq_ok hnodes
  have hparse : parseNodes limit false (before ++ s :: after) = .ok ns := by
    have hparsed := hreads.parsed
    rwa [Rendering.nodesOf, hcut] at hparsed
  have hcongruence := g.nodeCongruence_follows (g.drawBody (limit + limit))
  obtain ⟨ms, hms, hfollows⟩ := exists_parseNodes_inlined hcongruence hparse hs houtside hnodes
    (Setting.follows_inlined hname hshown hcutBody hinner hparent (limit + limit))
  obtain ⟨others, hothers, hsame⟩ := nameParts_of_written _ hfollows.written hreads.named
  have hregister : t.register others = t.register parts := by
    rw [Template.register_eq, Template.register_eq, hsame]
  have hread : Rendering.nodesOf t.own.delimiters (limit + limit) false
      (source before ++ (p.body ++ source after)) = .ok ms := by
    rw [Rendering.nodesOf, hjoined]
    exact hms
  refine ok_or_limit_of_drawn hlimit ⟨hread, hothers⟩ ?_
  rw [setting, hregister]
  exact hfollows.text out hdrawn

/-- A part with a condition in it. -/
def hall : Template :=
  { own :=
      { parts := .ofList
          [("p".toList, "<% if(0) %>a<% else %>\n\x7b\x7b b \x7d\x7d<% endif %>".toList)] } }

/-- The part may be written in the branch that shows it. Where only one block is allowed, there is
no room for its condition within that of the page. -/
theorem show_inlined_hall :
    let page := "<% part('q') %>x<% endpart %><% if(1) %>[<% show('p') %>]\n<% endif %>".toList
    let inlined := "<% part('q') %>x<% endpart %><% if(1) %>[".toList ++
      ("<% if(0) %>a<% else %>\n\x7b\x7b b \x7d\x7d<% endif %>".toList ++
        "]\n<% endif %>".toList)
    let out := "[\n\x7b\x7b b \x7d\x7d]\n".toList
    (compileDirectives .usual hall page).2 = .ok out ∧
      (shallow.compileDirectives hall page).2 = .ok out ∧
      (compileDirectives .usual hall inlined).2 = .ok out ∧
      ∃ f, (shallow.compileDirectives hall inlined).2 = .error f ∧
        f.cause.kind = .recursionLimit := by
  intro page inlined out
  let directive (name argument : String) : Segment :=
    .directive "<%".toList " ".toList name.toList argument.toList "%>".toList
  let before := [directive "part" "('q') ", .text "x".toList, directive "endpart" " ",
    directive "if" "(1) ", .text "[".toList]
  let s := directive "show" "('p') "
  let after := [.text "]\n".toList, directive "endif" " "]
  let ss := [directive "if" "(0) ", .text "a".toList, directive "else" " ", .text "\n".toList,
    .tag .sanitized "\x7b\x7b".toList " b ".toList "\x7d\x7d".toList, directive "endif" " "]
  have hcut : segments {} (source before ++ (s.raw ++ source after)) =
      .ok (before ++ s :: after) := by
    decide +kernel
  have hs : s.Requires .showPart (.literal (.text "p".toList)) :=
    ⟨"('p')".toList, .mk "<%".toList " ".toList "('p') ".toList "%>".toList, rfl⟩
  have houtside : ClosesParts before := by
    simp only [before, closesParts_cons, closesParts_nil, Segment.names_iff]
    decide +kernel
  have hparent : ∀ x ∈ ss, ¬ x.Names .parent := by
    simp only [Segment.names_iff]
    decide +kernel
  have hpage : source before ++ (s.raw ++ source after) = page := by decide +kernel
  have hinlined : source before ++ (source ss ++ source after) = inlined := by decide +kernel
  have htokens : ({} : DelimiterSet).TellsApart (source before) (source ss) (source after) :=
    ⟨tokensFrom 1 0 before, tokensFrom 1 0 ss, tokensFrom 1 0 after, by decide +kernel⟩
  have hname : ∀ c : Compiler,
      (hall.scope c.functions).nameOf (.literal (.text "p".toList)) = .ok "p".toList :=
    fun _ => rfl
  have hbody : segments {} (source ss) = .ok ss := by decide +kernel
  have hworks : ∀ c ∈ [Compiler.usual, shallow],
      (c.compileDirectives hall page).1.part? "p".toList = some ⟨0, source ss⟩ ∧
        (parseNodes c.limits.directiveDepth true ss).isOk = true ∧
        (c.compileDirectives hall page).2 = .ok out := by
    decide +kernel
  have hshown : ∀ c ∈ [Compiler.usual, shallow],
      (c.compileDirectives hall inlined).2 = .ok out ∨
        ∃ f, (c.compileDirectives hall inlined).2 = .error f ∧ f.cause.kind = .recursionLimit := by
    intro c hc
    obtain ⟨hpart, hparses, hout⟩ := hworks c hc
    cases hnodes : parseNodes c.limits.directiveDepth true ss with
    | error f =>
      rw [hnodes] at hparses
      cases hparses
    | ok nodes =>
      rw [← hpage] at hpart hout
      rw [← hinlined]
      exact @show_inlined c hall before after ss s (.literal (.text "p".toList)) "p".toList out
        ⟨0, source ss⟩ nodes hcut hs houtside (hname c) hpart hbody hnodes hparent htokens
        hout
  obtain ⟨-, -, husual⟩ := hworks .usual List.mem_cons_self
  obtain ⟨-, -, hshallow⟩ := hworks shallow (by simp)
  refine ⟨husual, hshallow, (hshown .usual List.mem_cons_self).resolve_right ?_,
    (hshown shallow (by simp)).resolve_left (by decide +kernel)⟩
  rintro ⟨f, hf, -⟩
  have hroom : (compileDirectives .usual hall inlined).2.isOk = true := by decide +kernel
  rw [hf] at hroom
  cases hroom

end Compiler

end Stencil
