/- Rounding to doubles: how far it goes, that it keeps the order, and which integers it spares. -/
import Mathlib.Data.Nat.Log
import Stencil.Number.Basic

namespace Stencil.Double

/-- Integers up to here are doubles. -/
def exactLimit : Nat := Nat.pow 2 53

theorem exactLimit_eq : exactLimit = 9007199254740992 := rfl

section Quotients

variable {m n d : Nat}

theorem roundQuotient_le (num den : Nat) : roundQuotient num den ≤ num / den + 1 := by
  have hparity : num / den % 2 < 2 := Nat.mod_lt _ (by decide)
  unfold roundQuotient
  dsimp only
  split
  · exact Nat.le_succ _
  · split
    · exact Nat.le_refl _
    · omega

theorem le_roundQuotient (num den : Nat) : num / den ≤ roundQuotient num den := by
  unfold roundQuotient
  dsimp only
  split
  · exact Nat.le_refl _
  · split
    · exact Nat.le_succ _
    · exact Nat.le_add_right _ _

theorem roundQuotient_of_dvd (h : d ∣ n) : roundQuotient n d = n / d := by
  unfold roundQuotient
  rw [Nat.mod_eq_zero_of_dvd h]
  dsimp only
  split
  · rfl
  next hd =>
    obtain rfl : d = 0 := by omega
    rw [if_neg (by decide), Nat.div_zero]

theorem roundQuotient_mul_cancel (h : d ∣ n) : roundQuotient n d * d = n := by
  rw [roundQuotient_of_dvd h, Nat.div_mul_cancel h]

theorem roundQuotient_mono (h : m ≤ n) : roundQuotient m d ≤ roundQuotient n d := by
  rcases Nat.eq_or_lt_of_le (Nat.div_le_div_right (c := d) h) with hq | hq
  · have hm := Nat.div_add_mod m d
    have hn := Nat.div_add_mod n d
    rw [hq] at hm
    by_cases hlow : 2 * (m % d) < d
    · calc roundQuotient m d = m / d := by simp only [roundQuotient, if_pos hlow]
        _ = n / d := hq
        _ ≤ roundQuotient n d := le_roundQuotient n d
    · by_cases hhigh : d < 2 * (n % d)
      · have hnot : ¬ 2 * (n % d) < d := by omega
        calc roundQuotient m d ≤ m / d + 1 := roundQuotient_le m d
          _ = n / d + 1 := by rw [hq]
          _ = roundQuotient n d := by simp only [roundQuotient, if_neg hnot, if_pos hhigh]
      · -- both are halfway between the same two
        obtain rfl : m = n := by omega
        exact Nat.le_refl _
  · calc roundQuotient m d ≤ m / d + 1 := roundQuotient_le m d
      _ ≤ n / d := hq
      _ ≤ roundQuotient n d := le_roundQuotient n d

/-- Twice the error is at most the divisor. -/
theorem roundQuotient_near (hd : 0 < d) :
    2 * n ≤ 2 * (roundQuotient n d * d) + d ∧ 2 * (roundQuotient n d * d) ≤ 2 * n + d := by
  have hn := Nat.div_add_mod n d
  have hr := Nat.mod_lt n hd
  rw [Nat.mul_comm] at hn
  unfold roundQuotient
  dsimp only
  split
  · omega
  · split
    · rw [Nat.add_mul, Nat.one_mul]
      omega
    · rcases Nat.mod_two_eq_zero_or_one (n / d) with hparity | hparity
      · rw [hparity, Nat.add_zero]
        omega
      · rw [hparity, Nat.add_mul, Nat.one_mul]
        omega

end Quotients

section Magnitudes

variable {k m n : Nat}

theorem spacing_pos (m : Nat) : 0 < spacing m := Nat.two_pow_pos _

theorem spacing_le (m : Nat) : spacing m ≤ m + 1 := by
  rcases Nat.eq_zero_or_pos m with rfl | hpos
  · exact Nat.le_refl _
  · have hpow : 2 ^ (m.log2 - 52) ≤ 2 ^ m.log2 := Nat.pow_le_pow_right (by decide) (Nat.sub_le _ _)
    have hlog : 2 ^ m.log2 ≤ m := Nat.log2_self_le (Nat.ne_of_gt hpos)
    exact Nat.le_succ_of_le (Nat.le_trans hpow hlog)

/-- The distance between doubles is small beside them. -/
theorem exactLimit_mul_spacing_le (h : exactLimit ≤ m) : exactLimit * spacing m ≤ 2 * m := by
  have hlimit := exactLimit_eq
  have hpos : m ≠ 0 := by omega
  have hlog : 52 ≤ m.log2 := (Nat.le_log2 hpos).mpr (by omega)
  have hexponent : 53 + (m.log2 - 52) = m.log2 + 1 := by omega
  calc exactLimit * spacing m = 2 ^ 53 * 2 ^ (m.log2 - 52) := rfl
    _ = 2 * 2 ^ m.log2 := by rw [← Nat.pow_add, hexponent, Nat.pow_succ']
    _ ≤ 2 * m := Nat.mul_le_mul_left 2 (Nat.log2_self_le hpos)

/-- The magnitude of a double that is nearest to a number of units. -/
def rounded (m : Nat) : Nat := roundQuotient m (spacing m) * spacing m

theorem nearest_one (n : Nat) : nearest n 1 = rounded (n * unitsPerOne) := by
  rw [nearest, rounded, Nat.div_one, Nat.one_mul]

theorem rounded_near (m : Nat) :
    2 * m ≤ 2 * rounded m + spacing m ∧ 2 * rounded m ≤ 2 * m + spacing m :=
  roundQuotient_near (spacing_pos m)

theorem rounded_of_dvd (h : spacing m ∣ m) : rounded m = m := roundQuotient_mul_cancel h

/-- Rounding does not go beyond a multiple of the spacing. -/
theorem rounded_le (h : m ≤ k) (hk : spacing m ∣ k) : rounded m ≤ k := by
  calc rounded m ≤ roundQuotient k (spacing m) * spacing m :=
        Nat.mul_le_mul_right _ (roundQuotient_mono h)
    _ = k := roundQuotient_mul_cancel hk

theorem le_rounded (h : k ≤ m) (hk : spacing m ∣ k) : k ≤ rounded m := by
  calc k = roundQuotient k (spacing m) * spacing m := (roundQuotient_mul_cancel hk).symm
    _ ≤ rounded m := Nat.mul_le_mul_right _ (roundQuotient_mono h)

theorem rounded_mono (h : m ≤ n) : rounded m ≤ rounded n := by
  have hlog : m.log2 ≤ n.log2 := by
    rw [Nat.log2_eq_log_two, Nat.log2_eq_log_two]
    exact Nat.log_mono_right h
  rcases Nat.eq_or_lt_of_le hlog with hlog | hlog
  · have hspacing : spacing m = spacing n := by rw [spacing, spacing, hlog]
    rw [rounded, rounded, hspacing]
    exact Nat.mul_le_mul_right _ (roundQuotient_mono h)
  · -- the power of two between them is a double for both
    have hn : n ≠ 0 := by
      rintro rfl
      cases hlog
    calc rounded m ≤ 2 ^ n.log2 := by
          refine rounded_le ?_ (Nat.pow_dvd_pow 2 (by omega))
          exact Nat.le_of_lt (Nat.lt_of_lt_of_le Nat.lt_log2_self
            (Nat.pow_le_pow_right (by decide) hlog))
      _ ≤ rounded n := le_rounded (Nat.log2_self_le hn) (Nat.pow_dvd_pow 2 (Nat.sub_le _ _))

theorem nearest_le (num den : Nat) : nearest num den ≤ 2 * (num * unitsPerOne / den) + 1 := by
  unfold nearest
  dsimp only
  generalize num * unitsPerOne = units
  have hgap := spacing_le (units / den)
  generalize spacing (units / den) = gap at hgap
  have hround := roundQuotient_le units (den * gap)
  have hfloor : units / (den * gap) * gap ≤ units / den := by
    rw [← Nat.div_div_eq_div_mul]
    exact Nat.div_mul_le_self _ _
  calc roundQuotient units (den * gap) * gap
      ≤ (units / (den * gap) + 1) * gap := Nat.mul_le_mul_right gap hround
    _ = units / (den * gap) * gap + gap := Nat.succ_mul _ _
    _ ≤ 2 * (units / den) + 1 := by omega

/-- What is far from overflowing does not overflow by rounding. -/
theorem exists_ofRatio? (negative : Bool) {num : Nat}
    (hnum : 2 * (num * unitsPerOne) + 1 < overflow) (den : Nat) :
    ∃ x, ofRatio? negative num den = some x := by
  have hunits : num * unitsPerOne / den ≤ num * unitsPerOne := Nat.div_le_self _ _
  have hnearest := nearest_le num den
  have hfits : nearest num den < overflow := by omega
  rw [ofRatio?, if_pos hfits]
  exact ⟨_, rfl⟩

end Magnitudes

section Naturals

variable {m n : Nat}

theorem exists_unitsPerOne : ∃ e, unitsPerOne = Nat.pow 2 e := by
  -- the power itself is better not evaluated
  unfold unitsPerOne
  generalize 1074 = e
  exact ⟨e, rfl⟩

theorem unitsPerOne_pos : 0 < unitsPerOne := by
  obtain ⟨e, he⟩ := exists_unitsPerOne
  exact he ▸ Nat.two_pow_pos e

theorem nearest_mono (h : m ≤ n) : nearest m 1 ≤ nearest n 1 := by
  rw [nearest_one, nearest_one]
  exact rounded_mono (Nat.mul_le_mul_right _ h)

theorem spacing_dvd (h : n ≤ exactLimit) (e : Nat) :
    spacing (n * Nat.pow 2 e) ∣ n * Nat.pow 2 e := by
  rw [Nat.pow_eq]
  rcases Nat.eq_or_lt_of_le h with rfl | h
  · rw [exactLimit, Nat.pow_eq, ← Nat.pow_add, spacing, Nat.log2_two_pow]
    exact Nat.pow_dvd_pow 2 (Nat.sub_le _ _)
  · rcases Nat.eq_zero_or_pos n with rfl | hpos
    · exact ⟨0, Nat.zero_mul _⟩
    · have hbelow : n * 2 ^ e < 2 ^ (53 + e) := by
        rw [Nat.pow_add]
        exact Nat.mul_lt_mul_of_pos_right h (Nat.two_pow_pos e)
      have hne : n * 2 ^ e ≠ 0 := Nat.ne_of_gt (Nat.mul_pos hpos (Nat.two_pow_pos e))
      have hlog := (Nat.log2_lt hne).mpr hbelow
      exact Nat.dvd_mul_left_of_dvd (Nat.pow_dvd_pow 2 (by omega)) n

theorem nearest_of_le (h : n ≤ exactLimit) : nearest n 1 = n * unitsPerOne := by
  obtain ⟨e, he⟩ := exists_unitsPerOne
  rw [nearest_one, he, rounded_of_dvd (spacing_dvd h e)]

/-- Two numbers are told apart if the lower one is below the limit. -/
theorem nearest_lt_nearest (hm : m < exactLimit) (h : m < n) : nearest m 1 < nearest n 1 := by
  calc nearest m 1 = m * unitsPerOne := nearest_of_le (Nat.le_of_lt hm)
    _ < (m + 1) * unitsPerOne :=
      Nat.mul_lt_mul_of_pos_right (Nat.lt_succ_self m) unitsPerOne_pos
    _ = nearest (m + 1) 1 := (nearest_of_le hm).symm
    _ ≤ nearest n 1 := nearest_mono h

theorem le_of_nearest_eq (hne : m ≠ n) (h : nearest m 1 = nearest n 1) :
    exactLimit ≤ m := by
  refine Nat.le_of_not_lt fun hm => ?_
  rcases Nat.lt_or_gt_of_ne hne with hlt | hlt
  · exact Nat.ne_of_lt (nearest_lt_nearest hm hlt) h
  · exact Nat.ne_of_lt (nearest_lt_nearest (Nat.lt_trans hlt hm) hlt) h.symm

/-- Numbers that round to one double are close to each other. -/
theorem exactLimit_mul_sub_le (h : nearest m 1 = nearest n 1) :
    exactLimit * (n - m) ≤ m + n := by
  by_cases hlt : m < n
  · have hm := le_of_nearest_eq (Nat.ne_of_lt hlt) h
    have hscale {k : Nat} (hk : exactLimit ≤ k) :
        exactLimit * spacing (k * unitsPerOne) ≤ 2 * (k * unitsPerOne) :=
      exactLimit_mul_spacing_le (Nat.le_trans hk (Nat.le_mul_of_pos_right k unitsPerOne_pos))
    have hmgap := hscale hm
    have hngap := hscale (Nat.le_trans hm (Nat.le_of_lt hlt))
    rw [nearest_one, nearest_one] at h
    have hmnear := (rounded_near (m * unitsPerOne)).2
    have hnnear := (rounded_near (n * unitsPerOne)).1
    rw [← h] at hnnear
    have hunits : exactLimit * (n - m) * unitsPerOne ≤ (m + n) * unitsPerOne := by
      rw [exactLimit_eq] at hmgap hngap ⊢
      rw [Nat.mul_assoc, Nat.sub_mul, Nat.add_mul]
      omega
    exact Nat.le_of_mul_le_mul_right hunits unitsPerOne_pos
  · rw [Nat.sub_eq_zero_of_le (Nat.le_of_not_lt hlt)]
    exact Nat.zero_le _

end Naturals

section Integers

variable {a b : Int}

theorem units_ofInt_of_nonneg (h : 0 ≤ a) : (ofInt a).units = (nearest a.natAbs 1 : Int) := by
  have hsign : ¬ a < 0 := Int.not_lt.mpr h
  simp only [ofInt, units, hsign, decide_false, Bool.false_eq_true, if_false]

theorem units_ofInt_of_neg (h : a < 0) : (ofInt a).units = -(nearest a.natAbs 1 : Int) := by
  simp only [ofInt, units, h, decide_true, if_true]

theorem units_ofInt_mono (h : a ≤ b) : (ofInt a).units ≤ (ofInt b).units := by
  by_cases ha : a < 0
  · rw [units_ofInt_of_neg ha]
    by_cases hb : b < 0
    · rw [units_ofInt_of_neg hb]
      exact Int.neg_le_neg (Int.ofNat_le.mpr (nearest_mono (by omega)))
    · rw [units_ofInt_of_nonneg (by omega)]
      omega
  · rw [units_ofInt_of_nonneg (by omega), units_ofInt_of_nonneg (by omega)]
    exact Int.ofNat_le.mpr (nearest_mono (by omega))

/-- An integer rounds to zero only if it is zero, which has one sign. -/
theorem units_ofInt_inj : (ofInt a).units = (ofInt b).units ↔ ofInt a = ofInt b := by
  refine ⟨fun h => ?_, congrArg units⟩
  have hpos {c : Int} (hc : c < 0) : 0 < nearest c.natAbs 1 :=
    Nat.zero_lt_of_lt (nearest_lt_nearest (m := 0) (by decide) (by omega))
  by_cases ha : a < 0
  · by_cases hb : b < 0
    · rw [units_ofInt_of_neg ha, units_ofInt_of_neg hb] at h
      have hmagnitude : nearest a.natAbs 1 = nearest b.natAbs 1 := by omega
      simp only [ofInt, ha, hb, hmagnitude]
    · rw [units_ofInt_of_neg ha, units_ofInt_of_nonneg (by omega)] at h
      have := hpos ha
      omega
  · by_cases hb : b < 0
    · rw [units_ofInt_of_nonneg (by omega), units_ofInt_of_neg hb] at h
      have := hpos hb
      omega
    · rw [units_ofInt_of_nonneg (by omega), units_ofInt_of_nonneg (by omega)] at h
      have hmagnitude : nearest a.natAbs 1 = nearest b.natAbs 1 := by omega
      simp only [ofInt, ha, hb, hmagnitude]

/-- The order of the doubles nearest to two integers. -/
def roundedOrder (a b : Int) : Ordering := if ofInt a = ofInt b then .eq else compare a b

theorem compare_units_ofInt (a b : Int) :
    compare (ofInt a).units (ofInt b).units = roundedOrder a b := by
  unfold roundedOrder
  split
  next h => rw [h, compare_eq_iff_eq]
  next h =>
    have hunits : (ofInt a).units ≠ (ofInt b).units := mt units_ofInt_inj.mp h
    rcases Int.lt_trichotomy a b with hlt | rfl | hlt
    · have hle := units_ofInt_mono (Int.le_of_lt hlt)
      rw [compare_lt_iff_lt.mpr hlt, compare_lt_iff_lt]
      omega
    · exact absurd rfl h
    · have hle := units_ofInt_mono (Int.le_of_lt hlt)
      rw [compare_gt_iff_gt.mpr hlt, compare_gt_iff_gt]
      omega

/-- Integers that round to one double are not below the limit, have one sign and are close to each
other. -/
theorem near_of_ofInt_eq (hne : a ≠ b) (h : ofInt a = ofInt b) :
    exactLimit ≤ a.natAbs ∧ exactLimit ≤ b.natAbs ∧ (a < 0 ↔ b < 0) ∧
      exactLimit * (a - b).natAbs ≤ a.natAbs + b.natAbs := by
  obtain ⟨hsign, hmagnitude⟩ := Double.mk.inj h
  have hsign : a < 0 ↔ b < 0 := decide_eq_decide.mp hsign
  have habs : a.natAbs ≠ b.natAbs := by omega
  refine ⟨le_of_nearest_eq habs hmagnitude, le_of_nearest_eq habs.symm hmagnitude.symm, hsign, ?_⟩
  have hab := exactLimit_mul_sub_le hmagnitude
  have hba := exactLimit_mul_sub_le hmagnitude.symm
  rw [exactLimit_eq] at hab hba ⊢
  omega

/-- Rounding keeps the order, or else makes two neighbours one. -/
theorem roundedOrder_cases (a b : Int) : roundedOrder a b = compare a b ∨
    (roundedOrder a b = .eq ∧ exactLimit ≤ a.natAbs ∧ exactLimit ≤ b.natAbs ∧ (a < 0 ↔ b < 0) ∧
      exactLimit * (a - b).natAbs ≤ a.natAbs + b.natAbs) := by
  by_cases h : ofInt a = ofInt b
  · by_cases hne : a = b
    · subst hne
      exact .inl (by rw [roundedOrder, if_pos rfl, compare_eq_iff_eq.mpr rfl])
    · exact .inr ⟨if_pos h, near_of_ofInt_eq hne h⟩
  · exact .inl (if_neg h)

end Integers

end Stencil.Double
