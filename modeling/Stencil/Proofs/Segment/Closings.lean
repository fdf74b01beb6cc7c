/- Where regions close: the first closing outside the quoted strings of the body. -/
import Stencil.Segment.Lexer

namespace Stencil

abbrev IsQuote (c : Char) : Prop := c = '"' ∨ c = '\''

/-- The rest of a string behind its opening quote, up to the next such quote that no backslash takes
away. -/
inductive StringRest (quote : Char) : Text → Prop
  | close : StringRest quote [quote]
  | escaped {t} (c : Char) : StringRest quote t → StringRest quote ('\\' :: c :: t)
  | plain {c t} : c ≠ quote → c ≠ '\\' → StringRest quote t → StringRest quote (c :: t)

/-- Text in which every string is complete, so that what follows it stands outside strings. -/
inductive Unquoted : Text → Prop
  | nil : Unquoted []
  | plain {c t} : ¬ IsQuote c → Unquoted t → Unquoted (c :: t)
  | string {quote s t} : IsQuote quote → StringRest quote s → Unquoted t →
      Unquoted (quote :: (s ++ t))

/-- The body in front of the first closing outside strings. -/
structure ClosesAfter (closing body t : Text) : Prop where
  unquoted : Unquoted body
  closes : body ++ closing <+: t
  first : ∀ other, Unquoted other → other ++ closing <+: t → body.length ≤ other.length

theorem ClosesAfter.eq {closing body other t : Text} (h : ClosesAfter closing body t)
    (h' : ClosesAfter closing other t) : body = other := by
  have hle := h.first other h'.unquoted h'.closes
  have hge := h'.first body h.unquoted h.closes
  have hbody := (List.prefix_append body closing).trans h.closes
  have hother := (List.prefix_append other closing).trans h'.closes
  exact (List.prefix_of_prefix_length_le hbody hother hle).eq_of_length (by omega)

namespace BodyState

/-- Text that leads from a state to a place outside strings. -/
def Leaves : BodyState → Text → Prop
  | .code, t => Unquoted t
  | .quoted quote _, t => ∃ s u, t = s ++ u ∧ StringRest quote s ∧ Unquoted u
  | .escaped quote _, t => ∃ c s u, t = c :: (s ++ u) ∧ StringRest quote s ∧ Unquoted u

/-- Strings are opened by quotes. -/
def Valid : BodyState → Prop
  | .code => True
  | .quoted quote _ => IsQuote quote
  | .escaped quote _ => IsQuote quote

theorem valid_code : BodyState.code.Valid := trivial

theorem Valid.next {state : BodyState} (h : state.Valid) (line : Nat) (c : Char) :
    (state.next line c).Valid := by
  cases state with
  | code =>
    rw [BodyState.next]
    split
    next hc => exact hc
    next => trivial
  | quoted quote opened =>
    rw [BodyState.next]
    split
    next => exact h
    next =>
      split
      next => trivial
      next => exact h
  | escaped quote opened => exact h

theorem leaves_nil_iff {state : BodyState} : state.Leaves [] ↔ state = .code := by
  constructor
  · intro h
    cases state with
    | code => rfl
    | quoted quote opened =>
      obtain ⟨s, u, heq, hs, -⟩ := h
      cases hs <;> cases heq
    | escaped quote opened =>
      obtain ⟨c, s, u, heq, -⟩ := h
      cases heq
  · rintro rfl
    exact .nil

theorem unquoted_cons_iff {c : Char} {t : Text} (hc : IsQuote c) :
    Unquoted (c :: t) ↔ ∃ s u, t = s ++ u ∧ StringRest c s ∧ Unquoted u := by
  constructor
  · intro h
    cases h with
    | plain hne => exact absurd hc hne
    | string _ hs hu => exact ⟨_, _, rfl, hs, hu⟩
  · rintro ⟨s, u, rfl, hs, hu⟩
    exact .string hc hs hu

theorem leaves_cons_iff {state : BodyState} (hstate : state.Valid) (line : Nat) {c : Char}
    {t : Text} : state.Leaves (c :: t) ↔ (state.next line c).Leaves t := by
  cases state with
  | code =>
    by_cases hc : IsQuote c
    · rw [BodyState.next, if_pos hc]
      exact unquoted_cons_iff hc
    · rw [BodyState.next, if_neg hc]
      constructor
      · intro h
        cases h with
        | plain _ ht => exact ht
        | string hquote => exact absurd hquote hc
      · exact .plain hc
  | quoted quote opened =>
    have hbackslash : quote ≠ '\\' := by
      rcases hstate with rfl | rfl <;> decide
    by_cases hescape : c = '\\'
    · simp only [BodyState.next, if_pos hescape]
      subst hescape
      constructor
      · rintro ⟨s, u, heq, hs, hu⟩
        cases hs with
        | close =>
          cases heq
          exact absurd rfl hbackslash
        | @escaped s d hs =>
          cases heq
          exact ⟨d, s, u, rfl, hs, hu⟩
        | plain _ hne =>
          cases heq
          exact absurd rfl hne
      · rintro ⟨d, s, u, rfl, hs, hu⟩
        exact ⟨'\\' :: d :: s, u, rfl, .escaped d hs, hu⟩
    · by_cases hquote : c = quote
      · simp only [BodyState.next, if_neg hescape, if_pos hquote]
        subst hquote
        constructor
        · rintro ⟨s, u, heq, hs, hu⟩
          cases hs with
          | close =>
            cases heq
            exact hu
          | escaped =>
            cases heq
            exact absurd rfl hescape
          | plain hne =>
            cases heq
            exact absurd rfl hne
        · exact fun hu => ⟨[c], t, rfl, .close, hu⟩
      · simp only [BodyState.next, if_neg hescape, if_neg hquote]
        constructor
        · rintro ⟨s, u, heq, hs, hu⟩
          cases hs with
          | close =>
            cases heq
            exact absurd rfl hquote
          | escaped =>
            cases heq
            exact absurd rfl hescape
          | plain _ _ hs =>
            cases heq
            exact ⟨_, u, rfl, hs, hu⟩
        · rintro ⟨s, u, rfl, hs, hu⟩
          exact ⟨c :: s, u, rfl, .plain hquote hescape hs, hu⟩
  | escaped quote opened =>
    constructor
    · rintro ⟨d, s, u, heq, hs, hu⟩
      cases heq
      exact ⟨s, u, rfl, hs, hu⟩
    · rintro ⟨s, u, rfl, hs, hu⟩
      exact ⟨c, s, u, rfl, hs, hu⟩

end BodyState

theorem leaves_of_bodyBefore {closing : Text} {state : BodyState} {line : Nat} {t body : Text}
    (hstate : state.Valid) (h : bodyBefore closing state line t = .ok body) :
    state.Leaves body ∧
      ∀ other, state.Leaves other → other ++ closing <+: t → body.length ≤ other.length := by
  induction t generalizing state line body with
  | nil => cases h
  | cons c cs ih =>
    rw [bodyBefore] at h
    split at h
    next hc =>
      cases h
      exact ⟨BodyState.leaves_nil_iff.mpr hc.1, fun _ _ _ => Nat.zero_le _⟩
    next hc =>
      obtain ⟨rest, hrest, rfl⟩ := Outcome.map_eq_ok_iff.mp h
      obtain ⟨hleaves, hfirst⟩ := ih (hstate.next line c) hrest
      refine ⟨(BodyState.leaves_cons_iff hstate line).mpr hleaves, fun other hother hcloses => ?_⟩
      cases other with
      | nil =>
        have hcode := BodyState.leaves_nil_iff.mp hother
        exact absurd ⟨hcode, List.isPrefixOf_iff_prefix.mpr hcloses⟩ hc
      | cons d ds =>
        obtain ⟨rfl, hprefix⟩ := List.cons_prefix_cons.mp hcloses
        have hle := hfirst ds ((BodyState.leaves_cons_iff hstate line).mp hother) hprefix
        exact Nat.succ_le_succ hle

theorem exists_bodyBefore {closing : Text} {state : BodyState} (line : Nat) {t other : Text}
    (hclosing : closing ≠ []) (hstate : state.Valid) (hleaves : state.Leaves other)
    (hcloses : other ++ closing <+: t) : ∃ body, bodyBefore closing state line t = .ok body := by
  induction t generalizing state line other with
  | nil =>
    have hnil := List.append_eq_nil_iff.mp (List.prefix_nil.mp hcloses)
    exact absurd hnil.2 hclosing
  | cons c cs ih =>
    rw [bodyBefore]
    split
    next => exact ⟨[], rfl⟩
    next hc =>
      cases other with
      | nil =>
        have hcode := BodyState.leaves_nil_iff.mp hleaves
        exact absurd ⟨hcode, List.isPrefixOf_iff_prefix.mpr hcloses⟩ hc
      | cons d ds =>
        obtain ⟨rfl, hprefix⟩ := List.cons_prefix_cons.mp hcloses
        have hnext := (BodyState.leaves_cons_iff hstate line).mp hleaves
        obtain ⟨body, hbody⟩ := ih (Text.lineAfter line d) (hstate.next line d) hnext hprefix
        exact ⟨d :: body, by rw [hbody]; rfl⟩

/-- The lexer ends a body where the region closes. -/
theorem bodyBefore_eq_ok_iff {closing : Text} {line : Nat} {t body : Text}
    (hclosing : closing ≠ []) :
    bodyBefore closing .code line t = .ok body ↔ ClosesAfter closing body t := by
  have hsound : ∀ {body}, bodyBefore closing .code line t = .ok body →
      ClosesAfter closing body t := by
    intro body h
    obtain ⟨hleaves, hfirst⟩ := leaves_of_bodyBefore BodyState.valid_code h
    exact ⟨hleaves, bodyBefore_append_closing h, hfirst⟩
  refine ⟨hsound, fun h => ?_⟩
  obtain ⟨other, hother⟩ := exists_bodyBefore line hclosing BodyState.valid_code h.unquoted h.closes
  rw [hother, h.eq (hsound hother)]

/-- The lexer finds no end of a body where no closing stands outside strings. -/
theorem exists_bodyBefore_error_iff {closing : Text} {t : Text} (line : Nat)
    (hclosing : closing ≠ []) :
    (∃ e, bodyBefore closing .code line t = .error e) ↔
      ∀ body, Unquoted body → ¬ body ++ closing <+: t := by
  rw [Outcome.exists_error_iff]
  constructor
  · intro h body hbody hcloses
    exact h (exists_bodyBefore line hclosing BodyState.valid_code hbody hcloses)
  · rintro h ⟨body, hbody⟩
    have hcloses := (bodyBefore_eq_ok_iff hclosing).mp hbody
    exact h body hcloses.unquoted hcloses.closes

end Stencil
