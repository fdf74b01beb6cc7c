/- The quoted strings that the lexer passes over, and where they stand among the expressions. -/
import Stencil.Proofs.Segment.Closings
import Stencil.Proofs.Segment.Groups

namespace Stencil

/-- A range of bytes. -/
structure Span where
  start : Nat
  stop : Nat
deriving DecidableEq

namespace Span

/-- The range that stands further on. -/
def moved (bytes : Nat) (σ : Span) : Span := ⟨σ.start + bytes, σ.stop + bytes⟩

/-- Whether the range has a byte between the two offsets. -/
def meets (first last : Nat) (σ : Span) : Bool := σ.start < last && first < σ.stop

/-- The range has a byte, and none of it stands outside the two offsets. -/
structure Within (first last : Nat) (σ : Span) : Prop where
  first_le : first ≤ σ.start
  start_lt : σ.start < σ.stop
  le_last : σ.stop ≤ last

variable {σ : Span} {first last : Nat}

theorem Within.mono (h : σ.Within first last) {lower upper : Nat} (hfirst : lower ≤ first)
    (hlast : last ≤ upper) : σ.Within lower upper :=
  ⟨Nat.le_trans hfirst h.first_le, h.start_lt, Nat.le_trans h.le_last hlast⟩

theorem Within.meets (h : σ.Within first last) : σ.meets first last = true := by
  have hfirst := h.first_le
  have hstart := h.start_lt
  have hlast := h.le_last
  simp only [Span.meets, Bool.and_eq_true, decide_eq_true_eq]
  omega

theorem Within.not_meets (h : σ.Within first last) {lower upper : Nat}
    (hapart : last ≤ lower ∨ upper ≤ first) : ¬ σ.meets lower upper = true := by
  have hfirst := h.first_le
  have hlast := h.le_last
  simp only [Span.meets, Bool.and_eq_true, decide_eq_true_eq]
  omega

end Span

/-- The strings that `bodyBefore` passes over, from quote to quote, when it stands at byte `offset`.
The string at hand, if it is in one, was opened at byte `opened`. -/
def stringsBefore (closing : Text) : BodyState → Nat → Nat → Nat → Text → List Span
  | _, _, _, _, [] => []
  | state, line, opened, offset, c :: cs =>
    if state = .code ∧ closing.isPrefixOf (c :: cs) then []
    else
      let next := state.next line c
      let stop := offset + c.utf8Size
      let rest := stringsBefore closing next (Text.lineAfter line c)
        (if state = .code then offset else opened) stop cs
      if state ≠ .code ∧ next = .code then ⟨opened, stop⟩ :: rest else rest

/-- The strings that `segmentAt?` passes over in the segment that starts here. -/
def stringsAt (os : List Opener) (line offset : Nat) (t : Text) : List Span :=
  match escapedOpening? os t with
  | some _ => []
  | none =>
    match matchOpener? os t with
    | some o =>
      stringsBefore o.closing .code (line + o.opening.newlines) 0 (offset + o.opening.byteSize)
        (t.drop o.opening.length)
    | none => []

/-- The strings that `segmentsFrom` passes over. -/
def stringsFrom (os : List Opener) : Nat → Nat → Nat → Text → List Span
  | _, _, _, [] => []
  | skip + 1, line, offset, c :: cs =>
    stringsFrom os skip (Text.lineAfter line c) (offset + c.utf8Size) cs
  | 0, line, offset, c :: cs =>
    match segmentAt? os line (c :: cs) with
    | .error _ => []
    | .ok (some s) =>
      stringsAt os line offset (c :: cs) ++
        stringsFrom os (s.raw.length - 1) (Text.lineAfter line c) (offset + c.utf8Size) cs
    | .ok none => stringsFrom os 0 (Text.lineAfter line c) (offset + c.utf8Size) cs

/-- The strings that the lexer passes over in a text. -/
def passedStrings (ds : DelimiterSet) (t : Text) : List Span := stringsFrom ds.openers 0 1 0 t

/-- The text at byte `offset` has its strings there, each of them complete. -/
inductive HasStrings : Nat → Text → List Span → Prop
  | nil {offset} : HasStrings offset [] []
  | plain {offset c t σs} : ¬ IsQuote c → HasStrings (offset + c.utf8Size) t σs →
      HasStrings offset (c :: t) σs
  | string {offset quote s t σs} : IsQuote quote → StringRest quote s →
      HasStrings (offset + Text.byteSize (quote :: s)) t σs →
      HasStrings offset (quote :: (s ++ t)) (⟨offset, offset + Text.byteSize (quote :: s)⟩ :: σs)

variable {offset : Nat} {t : Text} {σs τs : List Span}

theorem HasStrings.within (h : HasStrings offset t σs) :
    ∀ σ ∈ σs, σ.Within offset (offset + t.byteSize) := by
  induction h with
  | nil => nofun
  | @plain offset c t σs _ _ ih =>
    intro σ hσ
    refine (ih σ hσ).mono (Nat.le_add_right _ _) ?_
    rw [Text.byteSize_cons]
    omega
  | @string offset quote s t σs _ _ _ ih =>
    have hquote := quote.utf8Size_pos
    have hsize : Text.byteSize (quote :: (s ++ t)) = Text.byteSize (quote :: s) + t.byteSize := by
      rw [← List.cons_append, Text.byteSize_append]
    rw [hsize]
    refine List.forall_mem_cons.mpr ⟨⟨Nat.le_refl _, ?_, ?_⟩, ?_⟩
    · rw [Text.byteSize_cons]
      dsimp only
      omega
    · dsimp only
      omega
    · intro σ hσ
      exact (ih σ hσ).mono (Nat.le_add_right _ _) (by omega)

theorem HasStrings.tail {c : Char} (hc : ¬ IsQuote c) (h : HasStrings offset (c :: t) σs) :
    HasStrings (offset + c.utf8Size) t σs := by
  cases h with
  | plain _ h => exact h
  | string hquote => exact absurd hquote hc

/-- Text without quotes in front of a text moves its strings. -/
theorem hasStrings_append_iff {r : Text} (hr : ∀ c ∈ r, ¬ IsQuote c) :
    HasStrings offset (r ++ t) σs ↔ HasStrings (offset + r.byteSize) t σs := by
  induction r generalizing offset with
  | nil => rfl
  | cons c r ih =>
    obtain ⟨hc, hr⟩ := List.forall_mem_cons.mp hr
    rw [List.cons_append, Text.byteSize_cons, ← Nat.add_assoc, ← ih hr]
    exact ⟨.tail hc, .plain hc⟩

theorem StringRest.exists_last {quote : Char} {s : Text} (h : StringRest quote s) :
    ∃ r, s = r ++ [quote] := by
  induction h with
  | close => exact ⟨[], rfl⟩
  | escaped c _ ih =>
    obtain ⟨r, rfl⟩ := ih
    exact ⟨'\\' :: c :: r, rfl⟩
  | @plain c t _ _ _ ih =>
    obtain ⟨r, rfl⟩ := ih
    exact ⟨c :: r, rfl⟩

/-- Text without quotes behind a text adds no strings. -/
theorem HasStrings.of_append {r : Text} (hr : ∀ c ∈ r, ¬ IsQuote c)
    (h : HasStrings offset (t ++ r) σs) : HasStrings offset t σs := by
  generalize hwhole : t ++ r = whole at h
  induction h generalizing t with
  | nil =>
    obtain ⟨rfl, -⟩ := List.append_eq_nil_iff.mp hwhole
    exact .nil
  | @plain offset c u σs hc h ih =>
    cases t with
    | nil =>
      obtain rfl : r = c :: u := hwhole
      have hu : HasStrings (offset + Text.byteSize (c :: u)) [] σs := by
        apply (hasStrings_append_iff hr).mp
        rw [List.append_nil]
        exact .plain hc h
      cases hu
      exact .nil
    | cons d t =>
      cases hwhole
      exact .plain hc (ih rfl)
  | @string offset quote s u σs hquote hs h ih =>
    cases t with
    | nil =>
      obtain rfl : r = quote :: (s ++ u) := hwhole
      exact absurd hquote (hr quote List.mem_cons_self)
    | cons d t =>
      obtain ⟨rfl, hrest⟩ := List.cons.inj hwhole
      rcases List.append_eq_append_iff.mp hrest with ⟨w, hsw, hw⟩ | ⟨w, rfl, hw⟩
      · -- The closing quote would stand behind the text.
        cases w with
        | nil =>
          rw [List.append_nil] at hsw
          subst hsw
          have := HasStrings.string hquote hs (ih (t := []) hw)
          rwa [List.append_nil] at this
        | cons e w =>
          obtain ⟨front, hfront⟩ := hs.exists_last
          have hlast : (t ++ e :: w).getLast? = some d := by
            rw [← hsw, hfront, List.getLast?_concat]
          rw [List.getLast?_append, List.getLast?_cons, Option.some_or, ← List.getLast?_cons]
            at hlast
          have hmem : d ∈ r := hw ▸ List.mem_append_left u (List.mem_of_getLast? hlast)
          exact absurd hquote (hr d hmem)
      · exact .string hquote hs (ih hw.symm)

theorem not_isQuote_of_isBlank {c : Char} (hc : Unicode.isBlank c = true) : ¬ IsQuote c := by
  rintro (rfl | rfl) <;> revert hc <;> decide

theorem not_isQuote_of_isWord {c : Char} (hc : Unicode.isWord c = true) : ¬ IsQuote c := by
  rintro (rfl | rfl) <;> revert hc <;> decide

theorem not_isQuote_takeWhile {p : Char → Bool} (hp : ∀ c, p c = true → ¬ IsQuote c) (t : Text) :
    ∀ c ∈ t.takeWhile p, ¬ IsQuote c :=
  fun c hc => hp c (List.all_eq_true.mp List.all_takeWhile c hc)

theorem Text.trimEnd_append (t : Text) :
    ∃ r : Text, t.trimEnd ++ r = t ∧ ∀ c ∈ r, Unicode.isBlank c = true := by
  refine ⟨(t.reverse.takeWhile Unicode.isBlank).reverse, ?_, ?_⟩
  · rw [trimEnd, ← List.reverse_append, List.takeWhile_append_dropWhile, List.reverse_reverse]
  · intro c hc
    exact List.all_eq_true.mp List.all_takeWhile c (List.mem_reverse.mp hc)

/-- White space around a text holds no strings. -/
theorem HasStrings.trim (h : HasStrings offset t σs) :
    HasStrings (offset + Text.byteSize (t.takeWhile Unicode.isBlank)) t.trim σs := by
  have hlead := not_isQuote_takeWhile (fun _ => not_isQuote_of_isBlank) t
  have hstart :
      HasStrings (offset + Text.byteSize (t.takeWhile Unicode.isBlank)) t.trimStart σs := by
    apply (hasStrings_append_iff hlead).mp
    rwa [Text.trimStart, List.takeWhile_append_dropWhile]
  obtain ⟨r, hr, hblank⟩ := t.trimStart.trimEnd_append
  rw [← hr] at hstart
  exact hstart.of_append fun c hc => not_isQuote_of_isBlank (hblank c hc)

/-- Reading that goes on in a state at byte `offset` passes over these strings, the first of which
was opened at byte `opened` if the state is in one. -/
def BodyState.Passes (opened offset : Nat) (t : Text) (σs : List Span) : BodyState → Prop
  | .code => HasStrings offset t σs
  | .quoted quote _ => ∃ s u τs, t = s ++ u ∧ StringRest quote s ∧
      HasStrings (offset + s.byteSize) u τs ∧ σs = ⟨opened, offset + s.byteSize⟩ :: τs
  | .escaped quote _ => ∃ c s u τs, t = c :: (s ++ u) ∧ StringRest quote s ∧
      HasStrings (offset + Text.byteSize (c :: s)) u τs ∧
      σs = ⟨opened, offset + Text.byteSize (c :: s)⟩ :: τs

/-- The lexer ends a body where all the strings it passed over are complete. -/
theorem passes_of_bodyBefore {closing : Text} {state : BodyState} {line opened : Nat} {body : Text}
    (h : bodyBefore closing state line t = .ok body) :
    state.Passes opened offset body (stringsBefore closing state line opened offset t) := by
  induction t generalizing state line opened offset body with
  | nil => cases h
  | cons c cs ih =>
    rw [bodyBefore] at h
    rw [stringsBefore]
    split at h
    next hclosing =>
      cases h
      rw [if_pos hclosing, hclosing.1]
      exact .nil
    next hclosing =>
      obtain ⟨rest, hrest, rfl⟩ := Outcome.map_eq_ok_iff.mp h
      rw [if_neg hclosing]
      have hpasses : BodyState.Passes (if state = .code then offset else opened)
          (offset + c.utf8Size) rest _ (state.next line c) := ih hrest
      cases state with
      | code =>
        by_cases hc : IsQuote c
        · simp only [BodyState.next, if_pos hc] at hpasses ⊢
          obtain ⟨s, u, τs, rfl, hs, hu, hσs⟩ := hpasses
          simp only [ne_eq, not_true_eq_false, false_and, if_false, if_true] at hσs ⊢
          rw [hσs, Nat.add_assoc]
          rw [Nat.add_assoc] at hu
          exact .string hc hs hu
        · simp only [BodyState.next, if_neg hc] at hpasses ⊢
          exact .plain hc hpasses
      | quoted quote line' =>
        by_cases hescape : c = '\\'
        · simp only [BodyState.next, if_pos hescape] at hpasses ⊢
          obtain ⟨d, s, u, τs, rfl, hs, hu, hσs⟩ := hpasses
          simp only [reduceCtorEq, and_false, if_false] at hσs ⊢
          subst hescape
          refine ⟨'\\' :: d :: s, u, τs, rfl, .escaped d hs, ?_, ?_⟩
          · rwa [Text.byteSize_cons, ← Nat.add_assoc]
          · rw [hσs, Text.byteSize_cons '\\', ← Nat.add_assoc]
        · by_cases hquote : c = quote
          · simp only [BodyState.next, if_neg hescape, if_pos hquote] at hpasses ⊢
            subst hquote
            exact ⟨[c], rest, _, rfl, .close, hpasses, rfl⟩
          · simp only [BodyState.next, if_neg hescape, if_neg hquote] at hpasses ⊢
            obtain ⟨s, u, τs, rfl, hs, hu, hσs⟩ := hpasses
            simp only [reduceCtorEq, and_false, if_false] at hσs ⊢
            refine ⟨c :: s, u, τs, rfl, .plain hquote hescape hs, ?_, ?_⟩
            · rwa [Text.byteSize_cons, ← Nat.add_assoc]
            · rw [hσs, Text.byteSize_cons, ← Nat.add_assoc]
      | escaped quote line' =>
        obtain ⟨s, u, τs, rfl, hs, hu, hσs⟩ := hpasses
        simp only [BodyState.next, reduceCtorEq, and_false, if_false] at hσs ⊢
        refine ⟨c, s, u, τs, rfl, hs, ?_, ?_⟩
        · rwa [Text.byteSize_cons, ← Nat.add_assoc]
        · rw [hσs, Text.byteSize_cons, ← Nat.add_assoc]

namespace Segment

/-- The text of a region in which an expression may stand. -/
def expressionText : Segment → Text
  | .directive _ _ _ argument _ => argument
  | .tag _ _ body _ => body
  | _ => []

/-- How many bytes of the segment stand in front of that text. -/
def expressionStart : Segment → Nat
  | .directive opening lead name _ _ => Text.byteSize (opening ++ (lead ++ name))
  | .tag _ opening _ _ => opening.byteSize
  | _ => 0

theorem expressionStart_add_le (s : Segment) :
    s.expressionStart + s.expressionText.byteSize ≤ s.raw.byteSize := by
  cases s with
  | directive opening lead name argument closing =>
    simp only [expressionStart, expressionText, raw, Text.byteSize_append]
    omega
  | tag kind opening body closing =>
    simp only [expressionStart, expressionText, raw, Text.byteSize_append]
    omega
  | _ => exact Nat.zero_le _

end Segment

/-- The name of a directive and the white space in front of it hold no strings. -/
theorem hasStrings_of_regionSegment {o : Opener} {line : Nat} {body : Text} {s : Segment}
    (h : regionSegment o line body = .ok s)
    (hbody : HasStrings (offset + o.opening.byteSize) body σs) :
    HasStrings (offset + s.expressionStart) s.expressionText σs := by
  unfold regionSegment at h
  split at h
  next =>
    cases h
    exact hbody
  next =>
    dsimp only at h
    split at h
    next => cases h
    next =>
      cases h
      have hlead := not_isQuote_takeWhile (fun _ => not_isQuote_of_isBlank) body
      have hname := not_isQuote_takeWhile (fun _ => not_isQuote_of_isWord)
        (body.dropWhile Unicode.isBlank)
      rw [← List.takeWhile_append_dropWhile (p := Unicode.isBlank) (l := body),
        hasStrings_append_iff hlead, ← List.takeWhile_append_dropWhile (p := Unicode.isWord)
          (l := body.dropWhile Unicode.isBlank), hasStrings_append_iff hname] at hbody
      simpa only [Segment.expressionStart, Segment.expressionText, Text.byteSize_append,
        Nat.add_assoc] using hbody

theorem hasStrings_of_segmentAt? {os : List Opener} {line : Nat} {s : Segment}
    (h : segmentAt? os line t = .ok (some s)) :
    HasStrings (offset + s.expressionStart) s.expressionText (stringsAt os line offset t) := by
  rw [segmentAt?] at h
  rw [stringsAt]
  cases hescape : escapedOpening? os t with
  | some o =>
    rw [hescape] at h
    cases h
    exact .nil
  | none =>
    rw [hescape] at h
    cases hopening : matchOpener? os t with
    | none =>
      rw [hopening] at h
      cases h
    | some o =>
      rw [hopening] at h
      obtain ⟨r, hr, hs⟩ := Outcome.map_eq_ok_iff.mp h
      cases hs
      unfold regionAfter at hr
      split at hr
      next => cases hr
      next body hbody => exact hasStrings_of_regionSegment hr (passes_of_bodyBefore hbody)

/-- The segments from byte `offset` on have their strings there. -/
inductive AllHaveStrings : Nat → List Segment → List Span → Prop
  | nil {offset : Nat} : AllHaveStrings offset [] []
  | cons {offset : Nat} {s ss σs τs} : HasStrings (offset + s.expressionStart) s.expressionText σs →
      AllHaveStrings (offset + s.raw.byteSize) ss τs →
      AllHaveStrings offset (s :: ss) (σs ++ τs)

theorem AllHaveStrings.consText {c : Char} {ss : List Segment}
    (h : AllHaveStrings (offset + c.utf8Size) ss σs) :
    AllHaveStrings offset (Stencil.consText c ss) σs := by
  unfold Stencil.consText
  split
  next u ss =>
    cases h with
    | cons hu hss =>
      cases hu
      refine .cons .nil ?_
      rwa [Segment.raw, Text.byteSize_cons, ← Nat.add_assoc]
  next =>
    have hlead : HasStrings (offset + (Segment.text [c]).expressionStart)
        (Segment.text [c]).expressionText [] := .nil
    refine .cons hlead ?_
    rwa [Segment.raw, Text.byteSize_cons, Text.byteSize_nil, Nat.add_zero]

/-- The lexer cuts a text into segments that have the strings it passed over. -/
theorem allHaveStrings_of_segmentsFrom {os : List Opener} (hos : ∀ o ∈ os, o.opening ≠ [])
    {skip line : Nat} {ss : List Segment} (h : segmentsFrom os skip line t = .ok ss) :
    AllHaveStrings (offset + Text.byteSize (t.take skip)) ss
      (stringsFrom os skip line offset t) := by
  induction t generalizing skip line offset ss with
  | nil => cases skip <;> (cases h; exact .nil)
  | cons c cs ih =>
    cases skip with
    | succ skip =>
      rw [List.take_succ_cons, Text.byteSize_cons, ← Nat.add_assoc]
      exact ih h
    | zero =>
      rw [List.take_zero, Text.byteSize_nil, Nat.add_zero]
      rw [segmentsFrom] at h
      rw [stringsFrom]
      cases hfirst : segmentAt? os line (c :: cs) with
      | error e =>
        rw [hfirst] at h
        cases h
      | ok found =>
        rw [hfirst] at h
        cases found with
        | some s =>
          obtain ⟨rest, hrest, rfl⟩ := Outcome.map_eq_ok_iff.mp h
          obtain ⟨n, hn⟩ := Nat.exists_eq_succ_of_ne_zero fun h0 =>
            raw_ne_nil_of_segmentAt? hos hfirst (List.length_eq_zero_iff.mp h0)
          have hraw : s.raw = c :: cs.take (s.raw.length - 1) := by
            rw [hn, Nat.succ_sub_one, ← List.take_succ_cons, ← Nat.succ_eq_add_one, ← hn]
            exact List.prefix_iff_eq_take.mp (raw_of_segmentAt? hfirst)
          have hnext := @ih (offset + c.utf8Size) _ _ _ hrest
          rw [Nat.add_assoc, ← Text.byteSize_cons, ← hraw] at hnext
          exact .cons (hasStrings_of_segmentAt? hfirst) hnext
        | none =>
          obtain ⟨rest, hrest, rfl⟩ := Outcome.map_eq_ok_iff.mp h
          have hnext := @ih (offset + c.utf8Size) _ _ _ hrest
          rw [List.take_zero, Text.byteSize_nil, Nat.add_zero] at hnext
          exact hnext.consText

theorem AllHaveStrings.within {ss : List Segment} (h : AllHaveStrings offset ss σs) :
    ∀ σ ∈ σs, σ.Within offset (offset + (source ss).byteSize) := by
  induction h with
  | nil => nofun
  | @cons offset s ss σs τs hs _ ih =>
    have hexpression := s.expressionStart_add_le
    rw [source_cons, Text.byteSize_append]
    refine List.forall_mem_append.mpr ⟨?_, ?_⟩
    · intro σ hσ
      exact (hs.within σ hσ).mono (Nat.le_add_right _ _) (by omega)
    · intro σ hσ
      exact (ih σ hσ).mono (Nat.le_add_right _ _) (by omega)

end Stencil
