/- The passages that the tokens of a text mark off are the segments that it is cut into. -/
import Stencil.Proofs.Segment.Spans
import Stencil.Proofs.Segment.Groups

namespace Stencil

section Steps

variable {t x raw : Text} {k : Token} {r : OpenRegion} (ks : List Token) (offset : Nat)

theorem passagesFrom_opening {kind : RegionKind} (hk : k.kind = .opening kind) :
    passagesFrom t offset none (k :: ks) = (textBetween? t offset k.start).bind fun before =>
      (passagesFrom t k.stop (some ⟨kind, k.line, k.start, [], none⟩) ks).map (before ++ ·) := by
  rw [passagesFrom, hk]

theorem passagesFrom_directiveName (hk : k.kind = .directiveName) (hr : r.kind = .directive)
    (hx : t.slice? k.start k.stop = some x) : passagesFrom t offset (some r) (k :: ks) =
      passagesFrom t k.stop (some { r with name := x }) ks := by
  simp [passagesFrom, OpenRegion.holds, OpenRegion.take, hk, hr, hx]

theorem passagesFrom_expression (hk : k.kind = .expression)
    (hx : t.slice? k.start k.stop = some x) : passagesFrom t offset (some r) (k :: ks) =
      passagesFrom t k.stop (some { r with expression := some x.trim }) ks := by
  simp [passagesFrom, OpenRegion.holds, OpenRegion.take, hk, hx]

theorem passagesFrom_closing {kind : RegionKind} (hk : k.kind = .closing kind) {p : Passage}
    (hp : r.passage? t k.stop = some p) : passagesFrom t offset (some r) (k :: ks) =
      (passagesFrom t k.stop none ks).map (p :: ·) := by
  simp [passagesFrom, OpenRegion.holds, hk, hp]

end Steps

variable {t front rear : Text} {ss : List Segment}

/-- A group gives the passage that it marks off, behind the text in front of it. -/
theorem passagesFrom_of_markedBy {start stop : Nat} {p : Passage} {g : List Token}
    (h : p.MarkedBy t start stop g) (hp : p.isText = false) (first : Nat) (ks : List Token) :
    passagesFrom t first none (g ++ ks) = (textBetween? t first start).bind fun before =>
      (passagesFrom t stop none ks).map (before ++ p :: ·) := by
  cases h with
  | text hu => cases hp
  | escapedOpening hkind _ hvalue hraw hstart hstop hslice =>
    subst hvalue hraw hstart hstop
    have htail := Text.slice?_tail hslice
    rw [show '\\'.utf8Size = 1 from rfl] at htail
    rw [List.singleton_append, passagesFrom, hkind]
    dsimp only
    rw [hslice, htail]
    rfl
  | tag ho he hc hbody hline hstart hstop hslice =>
    subst hbody hline hstart hstop
    obtain ⟨x, hx, hvalue⟩ := he.value
    rw [List.cons_append, passagesFrom_opening _ _ ho.kind, List.cons_append,
      passagesFrom_expression _ _ he.kind hx, List.singleton_append,
      passagesFrom_closing _ _ hc.kind (by rw [OpenRegion.passage?, hslice]; rfl), hvalue]
    simp only [Option.map_map]
    rfl
  | @directive _ _ raw _ o n c e ho hn he hc hname hexpression hline hstart hstop hslice =>
    subst hname hexpression hline hstart hstop
    have hpassage : ∀ x : Option Text, OpenRegion.passage? t c.stop
        ⟨.directive, o.line, o.start, n.value, x⟩ = some (.directive n.value x o.line raw) := by
      intro x
      rw [OpenRegion.passage?, hslice]
      rfl
    rw [List.cons_append, passagesFrom_opening _ _ ho.kind, List.cons_append,
      passagesFrom_directiveName _ _ hn.kind rfl hn.value]
    cases e with
    | none =>
      rw [Option.toList_none, List.nil_append, List.singleton_append,
        passagesFrom_closing _ _ hc.kind (hpassage none)]
      simp only [Option.map_map]
      rfl
    | some e =>
      obtain ⟨x, hx, hvalue⟩ := (he e rfl).value
      rw [Option.toList_some, List.append_assoc, List.singleton_append, List.singleton_append,
        passagesFrom_expression _ _ (he e rfl).kind hx,
        passagesFrom_closing _ _ hc.kind (hpassage (some x.trim)), Option.map_some, hvalue]
      simp only [Option.map_map]
      rfl

/-- No text is empty, and no two of them stand side by side. -/
def Separated : List Segment → Prop
  | [] => True
  | .text t :: ss => t ≠ [] ∧ (∀ u us, ss ≠ .text u :: us) ∧ Separated ss
  | _ :: ss => Separated ss

theorem separated_cons {s : Segment} (hs : ∀ u, s ≠ .text u) :
    Separated (s :: ss) ↔ Separated ss := by
  cases s with
  | text t => exact absurd rfl (hs t)
  | escapedOpening opening => rfl
  | directive opening lead name argument closing => rfl
  | tag kind opening body closing => rfl

theorem Separated.tail {s : Segment} (h : Separated (s :: ss)) : Separated ss := by
  by_cases hs : ∃ u, s = .text u
  · obtain ⟨u, rfl⟩ := hs
    exact h.2.2
  · exact (separated_cons fun u hu => hs ⟨u, hu⟩).mp h

theorem Separated.consText (h : Separated ss) (c : Char) : Separated (consText c ss) := by
  unfold Stencil.consText
  split
  next u ss => exact ⟨List.cons_ne_nil _ _, h.2⟩
  next hss => exact ⟨List.cons_ne_nil _ _, hss, h⟩

theorem separated_of_segmentsFrom {ds : DelimiterSet} {skip : Nat}
    (h : segmentsFrom ds.openers skip line t = .ok ss) : Separated ss := by
  induction t generalizing skip line ss with
  | nil => cases skip <;> (cases h; trivial)
  | cons c cs ih =>
    cases skip with
    | succ skip => exact ih h
    | zero =>
      rw [segmentsFrom] at h
      split at h
      next => cases h
      next s hs =>
        obtain ⟨rest, hrest, rfl⟩ := Outcome.map_eq_ok_iff.mp h
        refine (separated_cons fun u hu => ?_).mpr (ih hrest)
        subst hu
        exact DelimiterSet.segmentAt?_ne_text hs
      next =>
        obtain ⟨rest, hrest, rfl⟩ := Outcome.map_eq_ok_iff.mp h
        exact (ih hrest).consText c

def textPassage (u : Text) : List Passage := if u = [] then [] else [.text u]

theorem textBetween?_of_eq {u : Text} (ht : t = (front ++ u) ++ rear) :
    textBetween? t front.byteSize (front ++ u).byteSize = some (textPassage u) := by
  rw [textBetween?, textPassage, Text.byteSize_append]
  by_cases hu : u = []
  · rw [if_pos hu, hu, Text.byteSize_nil, if_neg (by omega)]
  · have hpos := Text.byteSize_pos hu
    rw [List.append_assoc] at ht
    rw [if_neg hu, if_pos (by omega), Text.slice?_of_eq ht rfl rfl]
    rfl

theorem isText_passage {s : Segment} (hs : ∀ u, s ≠ .text u) (line offset : Nat) :
    (s.passage line offset).isText = false := by
  cases s with
  | text u => exact absurd rfl (hs u)
  | escapedOpening opening => rfl
  | directive opening lead name argument closing => rfl
  | tag kind opening body closing => rfl

-- A text has no tokens, so it is kept as `u` until the next segment has some.
theorem passagesFrom_tokensFrom {u : Text} (hss : Separated ss)
    (hu : u ≠ [] → ∀ v vs, ss ≠ .text v :: vs) (ht : t = (front ++ u) ++ source ss) :
    passagesFrom t front.byteSize none
        (tokensFrom (1 + (front ++ u).newlines) (front ++ u).byteSize ss) =
      some (textPassage u ++ passagesOf (1 + (front ++ u).newlines) (front ++ u).byteSize ss) := by
  induction ss generalizing front u with
  | nil =>
    have hsize : t.byteSize = (front ++ u).byteSize := by
      rw [ht, source_nil, List.append_nil]
    rw [tokensFrom, passagesFrom, hsize, textBetween?_of_eq ht, passagesOf, List.append_nil]
  | cons s ss ih =>
    by_cases hs : ∃ v, s = .text v
    · obtain ⟨v, rfl⟩ := hs
      obtain rfl : u = [] := Classical.byContradiction fun hne => hu hne v ss rfl
      rw [List.append_nil] at ht ⊢
      rw [source_cons, Segment.raw, ← List.append_assoc] at ht
      have hrest := ih hss.2.2 (fun _ => hss.2.1) ht
      rw [Text.newlines_append, Text.byteSize_append, ← Nat.add_assoc, textPassage,
        if_neg hss.1] at hrest
      exact hrest
    · have hne : ∀ v, s ≠ .text v := fun v hv => hs ⟨v, hv⟩
      rw [source_cons] at ht
      have hbehind : t = (((front ++ u) ++ s.raw) ++ []) ++ source ss := by
        rw [ht, List.append_nil]
        simp only [List.append_assoc]
      have hrest := ih ((separated_cons hne).mp hss) (fun h => absurd rfl h) hbehind
      rw [List.append_nil, Text.newlines_append, Text.byteSize_append, ← Nat.add_assoc] at hrest
      rw [tokensFrom, passagesFrom_of_markedBy (markedBy_tokens ht) (isText_passage hne _ _),
        textBetween?_of_eq ht, Option.bind_some, hrest, passagesOf]
      rfl

/-- The tokens of a text mark off the segments that it was cut into. -/
theorem passages?_of_segments {ds : DelimiterSet} (h : segments ds t = .ok ss) :
    passages? t (tokensFrom 1 0 ss) = some (passagesOf 1 0 ss) := by
  have ht : t = ([] ++ []) ++ source ss := (source_segments h).symm
  exact passagesFrom_tokensFrom (separated_of_segmentsFrom h) (fun hne => absurd rfl hne) ht

theorem raw_passage (s : Segment) (line offset : Nat) : (s.passage line offset).raw = s.raw := by
  cases s <;> rfl

theorem raw_passagesOf (ss : List Segment) (line offset : Nat) :
    (passagesOf line offset ss).flatMap Passage.raw = source ss := by
  induction ss generalizing line offset with
  | nil => rfl
  | cons s ss ih => rw [passagesOf, List.flatMap_cons, raw_passage, ih, source_cons]

theorem eq_text_of_passage {s : Segment} {line offset : Nat} {u : Text}
    (h : s.passage line offset = .text u) : s = .text u := by
  cases s <;> cases h
  rfl

theorem ne_nil_of_mem_passagesOf {ss : List Segment} (h : Separated ss) {line offset : Nat}
    {u : Text} (hu : .text u ∈ passagesOf line offset ss) : u ≠ [] := by
  induction ss generalizing line offset with
  | nil => cases hu
  | cons s ss ih =>
    rcases List.mem_cons.mp hu with hu | hu
    · obtain rfl := eq_text_of_passage hu.symm
      exact h.1
    · exact ih h.tail hu

theorem passagesOf_ne_adjacent {ss : List Segment} (h : Separated ss) (line offset : Nat)
    (before after : List Passage) (u v : Text) :
    passagesOf line offset ss ≠ before ++ .text u :: .text v :: after := by
  induction ss generalizing line offset before with
  | nil =>
    intro heq
    cases before <;> cases heq
  | cons s ss ih =>
    intro heq
    cases before with
    | cons p before => exact ih h.tail _ _ before (List.cons.inj heq).2
    | nil =>
      obtain ⟨hhead, hnext⟩ := List.cons.inj heq
      obtain rfl := eq_text_of_passage hhead
      cases ss with
      | nil => cases hnext
      | cons next ss => exact h.2.1 v ss (by rw [eq_text_of_passage (List.cons.inj hnext).1])

/-- The tokens of a text stand in order, none reaching into the next one, and come in groups. Taken
together by their spans, they mark off one passage for each group, and text between the groups where
there is any. The passages are the whole text. -/
theorem tokens_mark_passages {ds : DelimiterSet} {t : Text} {ks : List Token}
    (h : tokenize ds t = .ok ks) : ks.Pairwise Token.Precedes ∧
      (∀ k ∈ ks, ∃ x, t.slice? k.start k.stop = some x) ∧
      ∃ groups : List (Passage × List Token), groups.flatMap Prod.snd = ks ∧
        (∀ g ∈ groups, ∃ start stop, g.1.MarkedBy t start stop g.2) ∧
        passages? t ks = some (groups.map Prod.fst) ∧
        (groups.map Prod.fst).flatMap Passage.raw = t ∧
        (∀ u, .text u ∈ groups.map Prod.fst → u ≠ []) ∧
        ∀ before u v after, groups.map Prod.fst ≠ before ++ .text u :: .text v :: after := by
  obtain ⟨ss, hss, rfl⟩ := Outcome.map_eq_ok_iff.mp h
  have hseparated := separated_of_segmentsFrom hss
  have ht : t = [] ++ source ss := (source_segments hss).symm
  obtain ⟨groups, hmarked, hpassages, htokens⟩ := exists_groups ss ht
  refine ⟨(pairwise_tokensFrom ss 1 0).1, fun k hk => ?_, groups, htokens, hmarked, ?_⟩
  · have hk' : k ∈ groups.flatMap Prod.snd := htokens ▸ hk
    obtain ⟨g, hg, hkg⟩ := List.mem_flatMap.mp hk'
    obtain ⟨start, stop, hstart⟩ := hmarked g hg
    exact exists_slice_of_markedBy hstart k hkg
  · rw [hpassages]
    refine ⟨passages?_of_segments hss, ?_, fun u => ne_nil_of_mem_passagesOf hseparated, ?_⟩
    · rw [raw_passagesOf, source_segments hss]
    · intro before u v after
      exact passagesOf_ne_adjacent hseparated _ _ before after u v

/-- Tags of one kind close at once, those of the other as they open, and a directive opens with a
newline. -/
def DelimiterSet.odd : DelimiterSet where
  directive := some ⟨"<%\n".toList, "%>".toList⟩
  sanitized := some ⟨"##".toList, []⟩
  unsanitized := some ⟨"||".toList, "||".toList⟩

/-- The closing of the directive stands on the second line, as does the last tag. -/
theorem tokens_mark_passages_odd : ∃ ks,
    tokenize .odd "é##\\||<%\n a(1)%>|| b||".toList = .ok ks ∧
      passages? "é##\\||<%\n a(1)%>|| b||".toList ks = some
        [.text "é".toList, .tag .sanitized [] 1 2 "##".toList,
          .escapedOpening "\\||".toList "||".toList,
          .directive "a".toList (some "(1)".toList) 1 "<%\n a(1)%>".toList,
          .tag .unsanitized "b".toList 2 17 "|| b||".toList] ∧
      ks.Pairwise Token.Precedes ∧ ∃ groups : List (Passage × List Token),
        groups.flatMap Prod.snd = ks ∧ ∀ g ∈ groups, ∃ start stop,
          g.1.MarkedBy "é##\\||<%\n a(1)%>|| b||".toList start stop g.2 := by
  have hpassages : (tokenize .odd "é##\\||<%\n a(1)%>|| b||".toList).map
      (passages? "é##\\||<%\n a(1)%>|| b||".toList) = .ok (some
        [.text "é".toList, .tag .sanitized [] 1 2 "##".toList,
          .escapedOpening "\\||".toList "||".toList,
          .directive "a".toList (some "(1)".toList) 1 "<%\n a(1)%>".toList,
          .tag .unsanitized "b".toList 2 17 "|| b||".toList]) := by
    decide +kernel
  obtain ⟨ks, hks, hmarked⟩ := Outcome.map_eq_ok_iff.mp hpassages
  obtain ⟨hpairs, -, groups, htokens, hgroups, -⟩ := tokens_mark_passages hks
  exact ⟨ks, hks, hmarked, hpairs, groups, htokens, hgroups⟩

end Stencil
