/- The openings that a text starts with, and which of them counts. -/
import Stencil.Delimiters

namespace Stencil

def RegionKind.rank : RegionKind → Nat
  | .directive => 0
  | .tag .sanitized => 1
  | .tag .unsanitized => 2

theorem RegionKind.eq_of_rank_eq {k l : RegionKind} (h : k.rank = l.rank) : k = l := by
  rcases k with _ | _ | _ <;> rcases l with _ | _ | _ <;> first | rfl | cases h

def RegionKind.isTag (kind : RegionKind) : Bool := kind != .directive

namespace DelimiterSet

/-- The text starts with an opening that is set. -/
structure Offers (ds : DelimiterSet) (o : Opener) (t : Text) : Prop where
  isSet : ds.get? o.kind = some ⟨o.opening, o.closing⟩
  nonempty : o.opening ≠ []
  starts : o.opening <+: t

/-- The longest opening of some kinds that the text starts with. Of equal ones the first kind
counts. -/
structure Opens (ds : DelimiterSet) (kinds : RegionKind → Bool) (o : Opener) (t : Text) : Prop
    extends ds.Offers o t where
  among : kinds o.kind
  longest : ∀ p, ds.Offers p t → kinds p.kind → p.opening.length < o.opening.length ∨
    p.opening.length = o.opening.length ∧ o.kind.rank ≤ p.kind.rank

theorem Offers.eq {ds : DelimiterSet} {o p : Opener} {t u : Text} (ho : ds.Offers o t)
    (hp : ds.Offers p u) (h : o.kind = p.kind) : o = p := by
  have hset := ho.isSet
  rw [h, hp.isSet] at hset
  cases o
  cases p
  cases h
  cases hset
  rfl

theorem Opens.eq {ds : DelimiterSet} {kinds : RegionKind → Bool} {o p : Opener} {t : Text}
    (ho : ds.Opens kinds o t) (hp : ds.Opens kinds p t) : o = p := by
  have hop := ho.longest p hp.toOffers hp.among
  have hpo := hp.longest o ho.toOffers ho.among
  exact ho.toOffers.eq hp.toOffers (RegionKind.eq_of_rank_eq (by omega))

end DelimiterSet

/-- The order in which openers are tried. -/
def Opener.Precedes (o p : Opener) : Prop :=
  p.opening.length < o.opening.length ∨
    p.opening.length = o.opening.length ∧ o.kind.rank < p.kind.rank

theorem precedes_insertOpener {o : Opener} {os : List Opener} (hos : os.Pairwise Opener.Precedes)
    (ho : ∀ p ∈ os, o.kind.rank < p.kind.rank) : (insertOpener o os).Pairwise Opener.Precedes := by
  induction os with
  | nil => exact List.pairwise_singleton _ _
  | cons p ps ih =>
    obtain ⟨hp, hps⟩ := List.pairwise_cons.mp hos
    rw [insertOpener]
    split
    next hle =>
      refine List.pairwise_cons.mpr ⟨fun q hq => ?_, hos⟩
      have hrank := ho q hq
      rcases List.mem_cons.mp hq with rfl | hq
      · unfold Opener.Precedes
        omega
      · have hpq := hp q hq
        unfold Opener.Precedes at *
        omega
    next hlt =>
      have hrest := ih hps fun q hq => ho q (List.mem_cons_of_mem p hq)
      refine List.pairwise_cons.mpr ⟨fun q hq => ?_, hrest⟩
      rcases mem_insertOpener.mp hq with rfl | hq
      · exact .inl (Nat.lt_of_not_le hlt)
      · exact hp q hq

theorem precedes_foldr_insertOpener {os : List Opener}
    (hos : os.Pairwise fun o p => o.kind.rank < p.kind.rank) :
    (os.foldr insertOpener []).Pairwise Opener.Precedes := by
  induction os with
  | nil => exact .nil
  | cons o os ih =>
    obtain ⟨ho, hos⟩ := List.pairwise_cons.mp hos
    exact precedes_insertOpener (ih hos) fun p hp => ho p (mem_foldr_insertOpener.mp hp)

namespace DelimiterSet

theorem opener?_eq_some_iff {ds : DelimiterSet} {kind : RegionKind} {o : Opener} :
    ds.opener? kind = some o ↔
      o.kind = kind ∧ ds.get? kind = some ⟨o.opening, o.closing⟩ ∧ o.opening ≠ [] := by
  unfold opener?
  constructor
  · intro h
    split at h
    next d hd =>
      split at h
      next => cases h
      next hne =>
        cases h
        exact ⟨rfl, hd, fun hnil => hne (List.isEmpty_iff.mpr hnil)⟩
    next => cases h
  · rintro ⟨rfl, hset, hne⟩
    rw [hset]
    exact if_neg fun hempty => hne (List.isEmpty_iff.mp hempty)

theorem mem_openers {ds : DelimiterSet} {o : Opener} :
    o ∈ ds.openers ↔ ds.get? o.kind = some ⟨o.opening, o.closing⟩ ∧ o.opening ≠ [] := by
  rw [openers, mem_foldr_insertOpener, List.mem_filterMap]
  constructor
  · rintro ⟨kind, -, hkind⟩
    obtain ⟨rfl, hset⟩ := opener?_eq_some_iff.mp hkind
    exact hset
  · intro hset
    refine ⟨o.kind, ?_, opener?_eq_some_iff.mpr ⟨rfl, hset⟩⟩
    rcases o.kind with _ | _ | _ <;> decide

theorem precedes_openers (ds : DelimiterSet) : ds.openers.Pairwise Opener.Precedes := by
  apply precedes_foldr_insertOpener
  have hall : RegionKind.all.Pairwise fun k l => k.rank < l.rank := by decide
  refine List.Pairwise.filterMap ds.opener? ?_ hall
  intro k l hkl o ho p hp
  obtain ⟨rfl, -⟩ := opener?_eq_some_iff.mp ho
  obtain ⟨rfl, -⟩ := opener?_eq_some_iff.mp hp
  exact hkl

/-- The openers of some kinds, in the order in which they are tried. -/
def openersOf (ds : DelimiterSet) (kinds : RegionKind → Bool) : List Opener :=
  ds.openers.filter fun o => kinds o.kind

theorem openersOf_all (ds : DelimiterSet) : ds.openersOf (fun _ => true) = ds.openers :=
  List.filter_eq_self.mpr fun _ _ => rfl

theorem openersOf_isTag (ds : DelimiterSet) :
    ds.openersOf RegionKind.isTag = ds.openers.filter Opener.isTag := rfl

variable {ds : DelimiterSet} {kinds : RegionKind → Bool} {o : Opener} {t : Text}

theorem Offers.mem_openersOf (ho : ds.Offers o t) (hkind : kinds o.kind) :
    o ∈ ds.openersOf kinds :=
  List.mem_filter.mpr ⟨mem_openers.mpr ⟨ho.isSet, ho.nonempty⟩, hkind⟩

theorem offers_of_mem_openersOf (h : o ∈ ds.openersOf kinds) (hstarts : o.opening <+: t) :
    ds.Offers o t ∧ kinds o.kind := by
  obtain ⟨hopener, hkind⟩ := List.mem_filter.mp h
  obtain ⟨hset, hne⟩ := mem_openers.mp hopener
  exact ⟨⟨hset, hne, hstarts⟩, hkind⟩

theorem opens_of_matchOpener? (h : matchOpener? (ds.openersOf kinds) t = some o) :
    ds.Opens kinds o t := by
  have hstarts := isPrefixOf_of_matchOpener? h
  obtain ⟨-, before, after, hsplit, hbefore⟩ := List.find?_eq_some_iff_append.mp h
  have hmem : o ∈ ds.openersOf kinds := by simp [hsplit]
  obtain ⟨hoffers, hkind⟩ := offers_of_mem_openersOf hmem hstarts
  refine ⟨hoffers, hkind, fun p hp hpkind => ?_⟩
  have hpmem := hp.mem_openersOf hpkind
  have hsorted : (ds.openersOf kinds).Pairwise Opener.Precedes := (precedes_openers ds).filter _
  rw [hsplit] at hsorted hpmem
  rcases List.mem_append.mp hpmem with hp' | hp'
  · have hnot := hbefore p hp'
    simp [List.isPrefixOf_iff_prefix.mpr hp.starts] at hnot
  · rcases List.mem_cons.mp hp' with rfl | hp'
    · exact .inr ⟨rfl, Nat.le_refl _⟩
    · have hafter := (List.pairwise_append.mp hsorted).2.1
      have hprecedes := (List.pairwise_cons.mp hafter).1 p hp'
      exact hprecedes.imp_right fun h => ⟨h.1, Nat.le_of_lt h.2⟩

theorem matchOpener?_eq_none_iff :
    matchOpener? (ds.openersOf kinds) t = none ↔ ∀ o, kinds o.kind → ¬ ds.Offers o t := by
  rw [matchOpener?, List.find?_eq_none]
  constructor
  · intro h o hkind ho
    exact h o (ho.mem_openersOf hkind) (List.isPrefixOf_iff_prefix.mpr ho.starts)
  · intro h o hmem hstarts
    obtain ⟨hoffers, hkind⟩ := offers_of_mem_openersOf hmem (List.isPrefixOf_iff_prefix.mp hstarts)
    exact h o hkind hoffers

/-- The lexer finds the opening that counts. -/
theorem matchOpener?_eq_some_iff :
    matchOpener? (ds.openersOf kinds) t = some o ↔ ds.Opens kinds o t := by
  refine ⟨opens_of_matchOpener?, fun ho => ?_⟩
  cases hfound : matchOpener? (ds.openersOf kinds) t with
  | some p => rw [ho.eq (opens_of_matchOpener? hfound)]
  | none => exact absurd ho.toOffers (matchOpener?_eq_none_iff.mp hfound o ho.among)

end DelimiterSet

end Stencil
