/- Texts written so that nothing in them is a tag: backslashes stand in front of the openings. -/
import Stencil.Proofs.Segment.Regions

namespace Stencil

namespace DelimiterSet

/-- The text with a backslash in front of every opening of a tag, the longest one counting where
several stand. Its next `skip` characters belong to an opening already taken. -/
def literalFrom (ds : DelimiterSet) : Nat → Text → Text
  | _, [] => []
  | skip + 1, c :: cs => c :: ds.literalFrom skip cs
  | 0, c :: cs =>
    match matchOpener? (ds.openersOf RegionKind.isTag) (c :: cs) with
    | some o => '\\' :: c :: ds.literalFrom (o.opening.length - 1) cs
    | none => c :: ds.literalFrom 0 cs

/-- The text as it has to be written to stand for itself. -/
def literal (ds : DelimiterSet) (t : Text) : Text := ds.literalFrom 0 t

/-- No opening that is set has a backslash in it. -/
def Unslashed (ds : DelimiterSet) : Prop :=
  ∀ kind d, ds.get? kind = some d → '\\' ∉ d.opening

/-- No directive opens anywhere in the text. -/
def OpensNoDirective (ds : DelimiterSet) (t : Text) : Prop :=
  ∀ d, ds.directive = some d → d.opening ≠ [] → ¬ d.opening <:+: t

variable {ds : DelimiterSet} {o : Opener} {c : Char} {cs t w : Text} {skip : Nat}

theorem OpensNoDirective.tail (h : ds.OpensNoDirective (c :: cs)) : ds.OpensNoDirective cs :=
  fun d hd hne hinfix => h d hd hne (List.infix_cons hinfix)

/-- Up to its first backslash a literal text is the text itself. -/
theorem prefix_of_prefix_literalFrom (hw : '\\' ∉ w) (h : w <+: ds.literalFrom skip t) :
    w <+: t := by
  induction t generalizing skip w with
  | nil => cases skip <;> exact h
  | cons c cs ih =>
    cases w with
    | nil => exact List.nil_prefix
    | cons d w =>
      obtain ⟨hd, hw⟩ := not_or.mp (mt List.mem_cons.mpr hw)
      have hcons : ∀ {skip}, d :: w <+: c :: ds.literalFrom skip cs → d :: w <+: c :: cs := by
        intro skip h
        obtain ⟨rfl, hrest⟩ := List.cons_prefix_cons.mp h
        exact List.cons_prefix_cons.mpr ⟨rfl, ih hw hrest⟩
      cases skip with
      | succ skip => exact hcons h
      | zero =>
        rw [literalFrom] at h
        split at h
        next => exact absurd (List.cons_prefix_cons.mp h).1.symm hd
        next => exact hcons h

theorem prefix_literalFrom (h : w <+: t) (hskip : w.length ≤ skip) :
    w <+: ds.literalFrom skip t := by
  induction t generalizing skip w with
  | nil => cases skip <;> exact h
  | cons c cs ih =>
    cases w with
    | nil => exact List.nil_prefix
    | cons d w =>
      obtain ⟨rfl, hw⟩ := List.cons_prefix_cons.mp h
      cases skip with
      | zero => cases hskip
      | succ skip =>
        exact List.cons_prefix_cons.mpr ⟨rfl, ih hw (Nat.le_of_succ_le_succ hskip)⟩

/-- What opens in a literal text opens in the text itself. -/
theorem Offers.of_literalFrom (hds : ds.Unslashed) (h : ds.Offers o (ds.literalFrom skip t)) :
    ds.Offers o t :=
  ⟨h.isSet, h.nonempty, prefix_of_prefix_literalFrom (hds _ _ h.isSet) h.starts⟩

theorem Offers.of_cons_literalFrom (hds : ds.Unslashed)
    (h : ds.Offers o (c :: ds.literalFrom skip cs)) : ds.Offers o (c :: cs) := by
  have hskipped : ds.Offers o (ds.literalFrom (skip + 1) (c :: cs)) := h
  exact hskipped.of_literalFrom hds

/-- The opening that a backslash was put in front of is still the longest one there. -/
theorem Opens.literalFrom (hds : ds.Unslashed) (h : ds.Opens RegionKind.isTag o (c :: cs)) :
    ds.Opens RegionKind.isTag o (c :: ds.literalFrom (o.opening.length - 1) cs) := by
  refine ⟨⟨h.isSet, h.nonempty, ?_⟩, h.among, fun p hp =>
    h.longest p (hp.of_cons_literalFrom hds)⟩
  obtain ⟨d, w, hopening⟩ := List.exists_cons_of_ne_nil h.nonempty
  have hstarts := h.starts
  rw [hopening] at hstarts ⊢
  obtain ⟨rfl, hw⟩ := List.cons_prefix_cons.mp hstarts
  exact List.cons_prefix_cons.mpr ⟨rfl, prefix_literalFrom hw (Nat.le_refl _)⟩

/-- No tag opens at the start of a literal text, where a backslash stands if one opened before. -/
theorem not_offers_literal (hds : ds.Unslashed) (hkind : o.kind.isTag) :
    ¬ ds.Offers o (ds.literal t) := by
  intro h
  cases t with
  | nil => exact h.nonempty (List.prefix_nil.mp h.starts)
  | cons c cs =>
    have hopened := h.of_literalFrom hds
    rw [literal, DelimiterSet.literalFrom] at h
    split at h
    next p hp =>
      obtain ⟨d, w, hopening⟩ := List.exists_cons_of_ne_nil h.nonempty
      have hstarts := h.starts
      have hslash := hds _ _ h.isSet
      rw [hopening] at hstarts hslash
      obtain ⟨rfl, -⟩ := List.cons_prefix_cons.mp hstarts
      exact hslash List.mem_cons_self
    next hnone => exact matchOpener?_eq_none_iff.mp hnone o hkind hopened

theorem escapes_literal (hds : ds.Unslashed)
    (h : matchOpener? (ds.openersOf RegionKind.isTag) (c :: cs) = some o) :
    ds.Escapes o ('\\' :: c :: ds.literalFrom (o.opening.length - 1) cs) :=
  ⟨_, rfl, (opens_of_matchOpener? h).literalFrom hds⟩

theorem isPlain_literal (hds : ds.Unslashed) (hdirective : ds.OpensNoDirective (c :: cs))
    (h : matchOpener? (ds.openersOf RegionKind.isTag) (c :: cs) = none) :
    ds.IsPlain (c :: ds.literalFrom 0 cs) := by
  constructor
  · intro o ho
    have hopened := ho.of_cons_literalFrom hds
    by_cases hkind : o.kind.isTag
    · exact matchOpener?_eq_none_iff.mp h o hkind hopened
    · have hset := hopened.isSet
      rw [show o.kind = .directive by simpa [RegionKind.isTag] using hkind] at hset
      exact hdirective _ hset hopened.nonempty hopened.starts.isInfix
  · intro o rest heq hkind
    obtain ⟨-, rfl⟩ := List.cons.inj heq
    exact not_offers_literal hds hkind

end DelimiterSet

/-- The segments are text and escaped openings, and without the backslashes they read like this. -/
inductive Spells : List Segment → Text → Prop
  | nil : Spells [] []
  | text (u : Text) {ss : List Segment} {t : Text} : Spells ss t → Spells (.text u :: ss) (u ++ t)
  | escapedOpening (opening : Text) {ss : List Segment} {t : Text} : Spells ss t →
      Spells (.escapedOpening opening :: ss) (opening ++ t)

theorem Spells.consText {ss : List Segment} {t : Text} (h : Spells ss t) (c : Char) :
    Spells (consText c ss) (c :: t) := by
  cases h with
  | nil => exact .text [c] .nil
  | text u h => exact .text (c :: u) h
  | escapedOpening opening h => exact .text [c] (.escapedOpening opening h)

namespace DelimiterSet

variable {ds : DelimiterSet} {t : Text}

-- Where the lexer skips an opening behind a backslash, the literal text copies it.
theorem exists_spells_literalFrom (hds : ds.Unslashed) (ht : ds.OpensNoDirective t)
    (skip line : Nat) :
    ∃ ss, segmentsFrom ds.openers skip line (ds.literalFrom skip t) = .ok ss ∧
      Spells ss (t.drop skip) := by
  induction t generalizing skip line with
  | nil => cases skip <;> exact ⟨[], rfl, .nil⟩
  | cons c cs ih =>
    cases skip with
    | succ skip => exact ih ht.tail skip _
    | zero =>
      rw [literalFrom]
      split
      next o ho =>
        have hescapes := escapes_iff.mpr (escapes_literal hds ho)
        have htext := append_drop_of_matchOpener? ho
        obtain ⟨n, hn⟩ := Nat.exists_eq_succ_of_ne_zero fun h0 =>
          (opens_of_matchOpener? ho).nonempty (List.length_eq_zero_iff.mp h0)
        rw [hn, Nat.succ_sub_one] at hescapes ⊢
        rw [hn, Nat.succ_eq_add_one, List.drop_succ_cons] at htext
        obtain ⟨ss, hss, hspells⟩ := ih ht.tail n (Text.lineAfter (Text.lineAfter line '\\') c)
        refine ⟨.escapedOpening o.opening :: ss, ?_, ?_⟩
        · rw [segmentsFrom, segmentAt?, hescapes]
          show (segmentsFrom ds.openers o.opening.length _ _).map _ = _
          rw [hn, segmentsFrom, hss]
          rfl
        · have hspelled := Spells.escapedOpening o.opening hspells
          rwa [htext] at hspelled
      next hnone =>
        obtain ⟨ss, hss, hspells⟩ := ih ht.tail 0 (Text.lineAfter line c)
        refine ⟨consText c ss, ?_, hspells.consText c⟩
        rw [segmentsFrom_of_isPlain (isPlain_literal hds ht hnone), hss]
        rfl

/-- A literal text is cut into text and escaped openings that read like the text itself. -/
theorem exists_spells_literal (hds : ds.Unslashed) (ht : ds.OpensNoDirective t) :
    ∃ ss, segments ds (ds.literal t) = .ok ss ∧ Spells ss t :=
  exists_spells_literalFrom hds ht 0 1

end DelimiterSet

end Stencil
