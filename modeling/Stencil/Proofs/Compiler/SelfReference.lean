/- Tags in the values of tags, and why none of them stands inside its own value. -/
import Mathlib.Data.List.Chain
import Mathlib.Logic.Relation
import Stencil.Proofs.Segment.Openings
import Stencil.Usual

namespace Stencil

theorem Text.includes_of_infix {needle t : Text} (h : needle <:+: t) :
    t.includes needle = true := by
  induction t with
  | nil => simpa [includes] using h
  | cons c t ih =>
    rw [includes, Bool.or_eq_true]
    rcases List.infix_cons_iff.mp h with hprefix | hinfix
    · exact .inl (List.isPrefixOf_iff_prefix.mpr hprefix)
    · exact .inr (ih hinfix)

theorem infix_source {s : Segment} {ss : List Segment} (h : s ∈ ss) : s.raw <:+: source ss := by
  obtain ⟨front, rear, rfl⟩ := List.append_of_mem h
  rw [source_append, source_cons]
  exact ⟨source front, source rear, List.append_assoc _ _ _⟩

/-- What the tag stage replaces has the opening of a tag in it. -/
def Segment.OpensTag (os : List Opener) (s : Segment) : Prop :=
  ∃ o ∈ os, o.isTag = true ∧ o.opening <:+: s.raw

theorem opensTag_of_segmentAt? {os : List Opener} {line : Nat} {t : Text} {s : Segment}
    (h : segmentAt? os line t = .ok (some s)) (hs : s.isTagLike = true) : s.OpensTag os := by
  unfold segmentAt? at h
  split at h
  next o ho =>
    cases h
    unfold escapedOpening? at ho
    split at ho
    next =>
      obtain ⟨hmem, htag⟩ := List.mem_filter.mp (List.mem_of_find?_eq_some ho)
      exact ⟨o, hmem, htag, List.infix_cons (List.infix_refl _)⟩
    next => cases ho
  next =>
    split at h
    next o ho =>
      obtain ⟨r, hr, hsome⟩ := Outcome.map_eq_ok_iff.mp h
      cases hsome
      have hmem : o ∈ os := List.mem_of_find?_eq_some ho
      unfold regionAfter at hr
      split at hr
      next => cases hr
      next body _ =>
        have hraw := raw_of_regionSegment hr
        have hopening : o.opening <:+: s.raw := ⟨[], body ++ o.closing, hraw.symm⟩
        unfold regionSegment at hr
        split at hr
        next kind hkind => exact ⟨o, hmem, by simp [Opener.isTag, hkind], hopening⟩
        next =>
          dsimp only at hr
          split at hr
          next => cases hr
          next =>
            cases hr
            cases hs
    next => cases h

theorem mem_of_mem_consText {c : Char} {s : Segment} {ss : List Segment} (h : s ∈ consText c ss)
    (hs : s.isTagLike = true) : s ∈ ss := by
  unfold consText at h
  split at h
  all_goals
    rcases List.mem_cons.mp h with rfl | hrest
    · cases hs
    · first
      | exact hrest
      | exact List.mem_cons_of_mem _ hrest

theorem opensTag_of_segmentsFrom {os : List Opener} {skip line : Nat} {t : Text}
    {ss : List Segment} (h : segmentsFrom os skip line t = .ok ss) {s : Segment} (hmem : s ∈ ss)
    (hs : s.isTagLike = true) : s.OpensTag os := by
  induction t generalizing skip line ss with
  | nil => cases skip <;> (cases h; cases hmem)
  | cons c cs ih =>
    cases skip with
    | succ skip => exact ih h hmem
    | zero =>
      rw [segmentsFrom] at h
      split at h
      next => cases h
      next first hfirst =>
        obtain ⟨rest, hrest, rfl⟩ := Outcome.map_eq_ok_iff.mp h
        rcases List.mem_cons.mp hmem with rfl | hmem
        · exact opensTag_of_segmentAt? hfirst hs
        · exact ih hrest hmem
      next =>
        obtain ⟨rest, hrest, rfl⟩ := Outcome.map_eq_ok_iff.mp h
        exact ih hrest (mem_of_mem_consText hmem hs)

/-- Looking for an opening first misses no tag. -/
theorem taggedSegments?_eq_some_iff {ds : DelimiterSet} {t : Text} {ss : List Segment} :
    taggedSegments? ds t = some ss ↔ segments ds t = .ok ss ∧ ∃ s ∈ ss, s.isTagLike = true := by
  unfold taggedSegments?
  constructor
  · intro h
    split at h
    next =>
      split at h
      next ss' hss =>
        split at h
        next hany =>
          cases h
          exact ⟨hss, List.any_eq_true.mp hany⟩
        next => cases h
      next => cases h
    next => cases h
  · rintro ⟨hss, s, hmem, hs⟩
    have hincludes : includesTagOpening ds t = true := by
      obtain ⟨o, ho, htag, hopening⟩ := opensTag_of_segmentsFrom hss hmem hs
      have hopener := DelimiterSet.opener?_eq_some_iff.mpr ⟨rfl, DelimiterSet.mem_openers.mp ho⟩
      have hinfix : t.includes o.opening = true := by
        rw [← source_segments hss]
        exact Text.includes_of_infix (hopening.trans (infix_source hmem))
      apply List.any_eq_true.mpr
      cases hkind : o.kind with
      | directive => rw [Opener.isTag, hkind] at htag; cases htag
      | tag kind =>
        refine ⟨kind, ?_, ?_⟩
        · cases kind <;> simp
        · rw [hkind] at hopener
          rw [hopener]
          exact hinfix
    rw [if_pos hincludes, hss]
    exact if_pos (List.any_eq_true.mpr ⟨s, hmem, hs⟩)

namespace Tagging

/-- A tag with the second body stands in the value of the first. -/
inductive Holds (g : Tagging) : Text → Text → Prop
  | mk {outer inner value opening body closing : Text} {ss : List Segment} {kind : TagKind} :
      g.valueOf outer = .ok value → segments g.template.own.delimiters value = .ok ss →
      .tag kind opening body closing ∈ ss → body.trim = inner → Holds g outer inner

/-- The body can be replaced where `budget` values can be completed inside each other. -/
def Works (g : Tagging) (budget : Nat) (body : Text) : Prop :=
  ∃ value, g.valueOf body = .ok value ∧
    ∀ ss, taggedSegments? g.template.own.delimiters value = some ss →
      ∃ out, g.complete budget body ss = .ok out

variable {g : Tagging} {budget : Nat} {kind : TagKind} {opening body closing inner : Text}

theorem works_of_replace {out : Text}
    (h : g.replace (g.complete budget) (.tag kind opening body closing) = .ok out) :
    g.Works budget body.trim := by
  rw [replace] at h
  split at h
  next => cases h
  next value hvalue =>
    refine ⟨value, hvalue, ?_⟩
    intro ss hss
    rw [hss] at h
    obtain ⟨completed, hcompleted, -⟩ := Outcome.map_eq_ok_iff.mp h
    exact ⟨completed, hcompleted⟩

theorem works_of_replaceAll {ss : List Segment} {out : Text}
    (h : g.replaceAll (g.complete budget) ss = .ok out)
    (hmem : .tag kind opening body closing ∈ ss) : g.Works budget body.trim := by
  induction ss generalizing out with
  | nil => cases hmem
  | cons s ss ih =>
    rw [replaceAll] at h
    split at h
    next => cases h
    next first hfirst =>
      split at h
      next => cases h
      next rest hrest =>
        rcases List.mem_cons.mp hmem with rfl | hmem
        · exact works_of_replace hfirst
        · exact ih hrest hmem

theorem works_of_replaceFrom {s : Splice} {position : Nat} {ss : List Segment} {out : Text}
    (h : g.replaceFrom s position ss = .ok out) (hmem : .tag kind opening body closing ∈ ss) :
    g.Works g.limit body.trim := by
  induction ss generalizing position out with
  | nil => cases hmem
  | cons segment ss ih =>
    rw [replaceFrom] at h
    split at h
    next => cases h
    next first hfirst =>
      split at h
      next => cases h
      next rest hrest =>
        rcases List.mem_cons.mp hmem with rfl | hmem
        · exact works_of_replace hfirst
        · exact ih hrest hmem

/-- A tag in the value is replaced with less of the budget. -/
theorem Works.of_holds (h : g.Works budget body) (hholds : g.Holds body inner) :
    ∃ b < budget, g.Works b inner := by
  obtain ⟨hvalue, hss, hmem, rfl⟩ := hholds
  obtain ⟨value', hvalue', hcompletes⟩ := h
  cases hvalue.symm.trans hvalue'
  obtain ⟨out, hout⟩ := hcompletes _ (taggedSegments?_eq_some_iff.mpr ⟨hss, _, hmem, rfl⟩)
  cases budget with
  | zero => cases hout
  | succ b => exact ⟨b, Nat.lt_succ_self b, works_of_replaceAll hout hmem⟩

theorem Works.of_transGen (h : g.Works budget body)
    (hinside : Relation.TransGen g.Holds body inner) : ∃ b < budget, g.Works b inner := by
  induction hinside with
  | single hholds => exact h.of_holds hholds
  | tail _ hholds ih =>
    obtain ⟨b, hb, hworks⟩ := ih
    obtain ⟨b', hb', hinner⟩ := hworks.of_holds hholds
    exact ⟨b', Nat.lt_trans hb' hb, hinner⟩

-- A body inside itself would work with less than any budget it works with.
theorem Works.not_inside_itself (h : g.Works budget body) :
    ¬ Relation.TransGen g.Holds body body := by
  induction budget using Nat.strongRecOn with
  | ind budget ih =>
    intro hinside
    obtain ⟨b, hb, hworks⟩ := h.of_transGen hinside
    exact ih b hb hworks hinside

theorem Works.nodup_of_isChain {bodies : List Text} (h : g.Works budget body)
    (hchain : List.IsChain g.Holds (body :: bodies)) : (body :: bodies).Nodup := by
  induction bodies generalizing budget body with
  | nil => exact List.pairwise_singleton _ body
  | cons next bodies ih =>
    obtain ⟨hholds, hrest⟩ := List.isChain_cons_cons.mp hchain
    obtain ⟨b, -, hnext⟩ := h.of_holds hholds
    have hinside : List.IsChain (Relation.TransGen g.Holds) (body :: next :: bodies) :=
      hchain.imp fun _ _ => .single
    apply List.nodup_cons.mpr
    refine ⟨?_, ih hnext hrest⟩
    intro hmem
    exact h.not_inside_itself (List.rel_of_pairwise_cons hinside.pairwise hmem)

end Tagging

namespace Compiler

/-- Where tags could be replaced, none of them stood inside its own value: along every chain of
tags, each in the value of the one before, no body comes twice. -/
theorem nodup_nested_bodies (c : Compiler) (t : Template) (contents : Text) {out : Text}
    (h : c.compileTags t contents = .ok out) :
    ∃ ss, segments t.own.delimiters contents = .ok ss ∧
      ∀ kind opening body closing, .tag kind opening body closing ∈ ss →
        ∀ bodies, List.IsChain (c.tagging t).Holds (body.trim :: bodies) →
          (body.trim :: bodies).Nodup := by
  have hcontents : (Splice.whole contents).text = contents := List.append_nil contents
  rw [compileTags, Tagging.run, hcontents] at h
  split at h
  next => cases h
  next ss hss =>
    refine ⟨ss, hss, ?_⟩
    intro kind opening body closing hmem bodies hchain
    exact (Tagging.works_of_replaceFrom h hmem).nodup_of_isChain hchain

/-- A tag whose value is an expression, whose value is a tag again. -/
def layered : Template :=
  ⟨{ tags := .ofList [("a".toList, "\x7b\x7b '\x7b\x7b c \x7d\x7d' \x7d\x7d".toList),
       ("c".toList, "z".toList)] }, []⟩

/-- The quotes keep the inner tag from closing the outer one. Two values inside each other are all
that the limit allows. -/
theorem nodup_nested_bodies_layered :
    let c : Compiler := { Compiler.usual with limits := ⟨2, 0⟩ }
    let contents := "\x7b\x7b a \x7d\x7d".toList
    let bodies := ["a".toList, "'\x7b\x7b c \x7d\x7d'".toList, "c".toList]
    c.compileTags layered contents = .ok "z".toList ∧
      List.IsChain (c.tagging layered).Holds bodies ∧ bodies.Nodup := by
  intro c contents bodies
  have hok : c.compileTags layered contents = .ok "z".toList := by decide +kernel
  have hexpression : (c.tagging layered).Holds "a".toList "'\x7b\x7b c \x7d\x7d'".toList := by
    have hvalue : (c.tagging layered).valueOf "a".toList =
        .ok "\x7b\x7b '\x7b\x7b c \x7d\x7d' \x7d\x7d".toList := by
      decide +kernel
    have hss : segments {} "\x7b\x7b '\x7b\x7b c \x7d\x7d' \x7d\x7d".toList =
        .ok [.tag .sanitized "\x7b\x7b".toList " '\x7b\x7b c \x7d\x7d' ".toList
          "\x7d\x7d".toList] := by
      decide +kernel
    exact .mk hvalue hss List.mem_cons_self (by decide +kernel)
  have hlookup : (c.tagging layered).Holds "'\x7b\x7b c \x7d\x7d'".toList "c".toList := by
    have hvalue : (c.tagging layered).valueOf "'\x7b\x7b c \x7d\x7d'".toList =
        .ok "\x7b\x7b c \x7d\x7d".toList := by
      decide +kernel
    have hss : segments {} "\x7b\x7b c \x7d\x7d".toList =
        .ok [.tag .sanitized "\x7b\x7b".toList " c ".toList "\x7d\x7d".toList] := by
      decide +kernel
    exact .mk hvalue hss List.mem_cons_self (by decide +kernel)
  have hchain : List.IsChain (c.tagging layered).Holds bodies :=
    .cons_cons hexpression (.cons_cons hlookup (.singleton _))
  obtain ⟨ss, hss, hnodup⟩ := nodup_nested_bodies c layered contents hok
  have hss' : segments {} contents =
      .ok [.tag .sanitized "\x7b\x7b".toList " a ".toList "\x7d\x7d".toList] := by
    decide +kernel
  cases hss.symm.trans hss'
  exact ⟨hok, hchain, hnodup _ _ _ _ List.mem_cons_self _ hchain⟩

end Compiler

end Stencil
