import CardImport.Number.Decimal
import Mathlib.Algebra.Order.Field.Power
import Mathlib.Algebra.Order.Field.Rat
import Mathlib.Tactic.FieldSimp
import Mathlib.Tactic.Linarith
import Mathlib.Tactic.NormNum
import Mathlib.Tactic.Positivity
import Mathlib.Tactic.Ring

/-!
# Rounding to a binary number

A quotient that lies within half a step of a finite number is rounded to it, and within a quarter
of a step where the steps below are half as wide. What is rounded depends on the quotient alone.
-/

namespace CardImport

/-! ## Scaling by powers -/

@[simp] theorem cast_twoTo (k : ℕ) : (twoTo k : ℚ) = 2 ^ k := by
  rw [twoTo, Nat.pow_eq, Nat.cast_pow, Nat.cast_ofNat]

@[simp] theorem cast_tenTo (k : ℕ) : (tenTo k : ℚ) = 10 ^ k := by
  rw [tenTo, Nat.pow_eq, Nat.cast_pow, Nat.cast_ofNat]

theorem scaledDown_pos {den : ℕ} (h : 0 < den) (num : ℕ) (e : ℤ) : 0 < (scaledDown num den e).2 := by
  cases e with
  | ofNat k => exact Nat.mul_pos h (twoTo_pos k)
  | negSucc k => exact h

theorem scaledDown_div (num den : ℕ) (e : ℤ) :
    ((scaledDown num den e).1 : ℚ) / (scaledDown num den e).2 = num / den / 2 ^ e := by
  cases e with
  | ofNat k =>
      simp only [scaledDown, Nat.cast_mul, cast_twoTo, Int.ofNat_eq_natCast, zpow_natCast]
      rw [div_mul_eq_div_div]
  | negSucc k =>
      simp only [scaledDown, Nat.cast_mul, cast_twoTo, zpow_negSucc]
      rw [div_inv_eq_mul, mul_div_right_comm]

theorem scaledDown_mul (num den c : ℕ) (e : ℤ) :
    scaledDown (num * c) (den * c) e =
      ((scaledDown num den e).1 * c, (scaledDown num den e).2 * c) := by
  cases e with
  | ofNat k => exact Prod.ext rfl (Nat.mul_right_comm _ _ _)
  | negSucc k => exact Prod.ext (Nat.mul_right_comm _ _ _) rfl

/-! ## The binary logarithm -/

theorem log2Ratio_spec {num den : ℕ} (hnum : 0 < num) (hden : 0 < den) :
    (2 : ℚ) ^ log2Ratio num den ≤ num / den ∧ (num : ℚ) / den < 2 ^ (log2Ratio num den + 1) := by
  have hnumLow : (2 : ℚ) ^ (num.log2 : ℤ) ≤ num := by
    rw [zpow_natCast]; exact_mod_cast Nat.log2_self_le hnum.ne'
  have hnumHigh : (num : ℚ) < 2 ^ ((num.log2 : ℤ) + 1) := by
    exact_mod_cast @Nat.lt_log2_self num
  have hdenLow : (2 : ℚ) ^ (den.log2 : ℤ) ≤ den := by
    rw [zpow_natCast]; exact_mod_cast Nat.log2_self_le hden.ne'
  have hdenHigh : (den : ℚ) < 2 ^ ((den.log2 : ℤ) + 1) := by
    exact_mod_cast @Nat.lt_log2_self den
  have hpos : (0 : ℚ) < den := by exact_mod_cast hden
  -- The lengths of both numbers give the quotient up to a factor of two on either side.
  have low : (2 : ℚ) ^ ((num.log2 : ℤ) - den.log2 - 1) ≤ num / den := by
    rw [le_div_iff₀ hpos]
    calc (2 : ℚ) ^ ((num.log2 : ℤ) - den.log2 - 1) * den
        ≤ 2 ^ ((num.log2 : ℤ) - den.log2 - 1) * 2 ^ ((den.log2 : ℤ) + 1) :=
          mul_le_mul_of_nonneg_left hdenHigh.le (by positivity)
      _ = 2 ^ (num.log2 : ℤ) := by rw [← zpow_add₀ (by norm_num)]; congr 1; ring
      _ ≤ num := hnumLow
  have high : (num : ℚ) / den < 2 ^ ((num.log2 : ℤ) - den.log2 + 1) := by
    rw [div_lt_iff₀ hpos]
    calc (num : ℚ) < 2 ^ ((num.log2 : ℤ) + 1) := hnumHigh
      _ = 2 ^ ((num.log2 : ℤ) - den.log2 + 1) * 2 ^ (den.log2 : ℤ) := by
          rw [← zpow_add₀ (by norm_num)]; congr 1; ring
      _ ≤ 2 ^ ((num.log2 : ℤ) - den.log2 + 1) * den :=
          mul_le_mul_of_nonneg_left hdenLow (by positivity)
  have hscaled := scaledDown_div num den ((num.log2 : ℤ) - den.log2)
  have hscaledPos : (0 : ℚ) < (scaledDown num den ((num.log2 : ℤ) - den.log2)).2 := by
    exact_mod_cast scaledDown_pos hden num _
  -- The comparison in the algorithm tells which of the two halves it lies in.
  have hguess : (scaledDown num den ((num.log2 : ℤ) - den.log2)).2 ≤
      (scaledDown num den ((num.log2 : ℤ) - den.log2)).1 ↔
      (2 : ℚ) ^ ((num.log2 : ℤ) - den.log2) ≤ num / den := by
    rw [← Nat.cast_le (α := ℚ), ← one_le_div hscaledPos, hscaled, one_le_div (by positivity)]
  unfold log2Ratio
  dsimp only
  split
  · rename_i hle
    exact ⟨hguess.mp hle, high⟩
  · rename_i hnot
    exact ⟨low, by simpa using not_le.mp fun h => hnot (hguess.mpr h)⟩

/-- A quotient lies between one power of two and the next for one exponent only. -/
theorem log2Ratio_eq {num den : ℕ} {k : ℤ} (hnum : 0 < num) (hden : 0 < den)
    (low : (2 : ℚ) ^ k ≤ num / den) (high : (num : ℚ) / den < 2 ^ (k + 1)) :
    log2Ratio num den = k := by
  obtain ⟨hlow, hhigh⟩ := log2Ratio_spec hnum hden
  have h1 := (zpow_lt_zpow_iff_right₀ (by norm_num : (1 : ℚ) < 2)).mp (hlow.trans_lt high)
  have h2 := (zpow_lt_zpow_iff_right₀ (by norm_num : (1 : ℚ) < 2)).mp (low.trans_lt hhigh)
  omega

/-! ## The nearest whole number -/

theorem roundedQuotient_mul {num den c : ℕ} (hc : 0 < c) :
    roundedQuotient (num * c) (den * c) = roundedQuotient num den := by
  have hquotient : num * c / (den * c) = num / den := Nat.mul_div_mul_right _ _ hc
  have hrest : num * c % (den * c) = num % den * c := Nat.mul_mod_mul_right _ _ _
  have hbelow : 2 * (num % den * c) < den * c ↔ 2 * (num % den) < den := by
    rw [← Nat.mul_assoc]; exact Nat.mul_lt_mul_right hc
  have habove : den * c < 2 * (num % den * c) ↔ den < 2 * (num % den) := by
    rw [← Nat.mul_assoc]; exact Nat.mul_lt_mul_right hc
  simp only [roundedQuotient, hquotient, hrest, hbelow, habove]

theorem roundedQuotient_eq {num den m : ℕ} (hden : 0 < den)
    (low : (m : ℚ) - 1 / 2 < num / den) (high : (num : ℚ) / den < m + 1 / 2) :
    roundedQuotient num den = m := by
  have hpos : (0 : ℚ) < den := by exact_mod_cast hden
  rw [lt_div_iff₀ hpos] at low
  rw [div_lt_iff₀ hpos] at high
  have hlow : 2 * (m * den) < 2 * num + den := by
    have : (2 : ℚ) * (m * den) < 2 * num + den := by linarith
    exact_mod_cast this
  have hhigh : 2 * num < 2 * (m * den) + den := by
    have : (2 : ℚ) * num < 2 * (m * den) + den := by linarith
    exact_mod_cast this
  have hrest := Nat.mod_lt num hden
  have hsplit := Nat.div_add_mod num den
  -- The quotient is `m`, or one less with a rest of more than half.
  have hcases : num / den = m ∨ num / den + 1 = m := by
    by_contra hne
    rw [not_or] at hne
    rcases Nat.lt_or_gt_of_ne hne.1 with hless | hmore
    · have : (num / den + 2) * den ≤ m * den := Nat.mul_le_mul_right _ (by omega)
      rw [Nat.add_mul, Nat.mul_comm (num / den)] at this
      omega
    · have : (m + 1) * den ≤ num / den * den := Nat.mul_le_mul_right _ hmore
      rw [Nat.add_mul, Nat.mul_comm (num / den)] at this
      omega
  unfold roundedQuotient
  dsimp only
  rcases hcases with heq | heq
  · rw [heq, Nat.mul_comm] at hsplit
    rw [if_pos (by omega), heq]
  · rw [← heq, Nat.add_mul, Nat.mul_comm (num / den)] at hlow
    rw [if_neg (by omega), if_pos (by omega), heq]

/-- Rounding goes to one of the two neighbours. -/
theorem roundedQuotient_or (num den : ℕ) :
    roundedQuotient num den = num / den ∨ roundedQuotient num den = num / den + 1 := by
  unfold roundedQuotient
  dsimp only
  split
  · exact Or.inl rfl
  · split
    · exact Or.inr rfl
    · rcases Nat.mod_two_eq_zero_or_one (num / den) with h | h
      · exact Or.inl (by rw [h, Nat.add_zero])
      · exact Or.inr (by rw [h])

namespace Binary64

variable {negative : Bool} {num den m : ℕ} {e : ℤ}

/-! ## Rounding a quotient -/

theorem log2Ratio_mul {c : ℕ} (hnum : 0 < num) (hden : 0 < den) (hc : 0 < c) :
    log2Ratio (num * c) (den * c) = log2Ratio num den := by
  have hquotient : ((num * c : ℕ) : ℚ) / (den * c : ℕ) = num / den := by
    rw [Nat.cast_mul, Nat.cast_mul, mul_div_mul_right _ _ (by exact_mod_cast hc.ne')]
  obtain ⟨hlow, hhigh⟩ := log2Ratio_spec hnum hden
  rw [← hquotient] at hlow hhigh
  exact log2Ratio_eq (Nat.mul_pos hnum hc) (Nat.mul_pos hden hc) hlow hhigh

theorem ofRatio_mul {c : ℕ} (hden : 0 < den) (hc : 0 < c) :
    ofRatio negative (num * c) (den * c) = ofRatio negative num den := by
  rcases Nat.eq_zero_or_pos num with rfl | hnum
  · rw [Nat.zero_mul, ofRatio, if_pos rfl, ofRatio, if_pos rfl]
  · have hproduct := (Nat.mul_pos hnum hc).ne'
    simp only [ofRatio, hproduct, hnum.ne', if_false, log2Ratio_mul hnum hden hc, scaledDown_mul,
      roundedQuotient_mul hc]

/-- What is rounded depends on the quotient alone. -/
theorem ofRatio_congr {num' den' : ℕ} (hden : 0 < den) (hden' : 0 < den')
    (h : num * den' = num' * den) : ofRatio negative num den = ofRatio negative num' den' := by
  rw [← @ofRatio_mul _ num den den' hden hden', h, Nat.mul_comm den,
    @ofRatio_mul _ num' den' den hden' hden]

theorem ofParts_eq (h : Canonical m e) : ofParts negative m e = .finite negative m e h :=
  dif_pos h

theorem lt_of_zpow_le_of_lt_zpow {q : ℚ} {a b : ℤ} (low : (2 : ℚ) ^ a ≤ q) (high : q < 2 ^ b) :
    a < b :=
  (zpow_lt_zpow_iff_right₀ (by norm_num)).mp (low.trans_lt high)

/-- Where the mantissa is full, or the exponent the lowest, a quotient within half a step of a
finite number is rounded to it. -/
theorem ofRatio_eq_finite_of_full (hnum : 0 < num) (hden : 0 < den) (canonical : Canonical m e)
    (low : ((m : ℚ) - 1 / 2) * 2 ^ e < num / den) (high : (num : ℚ) / den < (m + 1 / 2) * 2 ^ e)
    (full : e = -1074 ∨ (2 : ℚ) ^ (e + 52) ≤ num / den) :
    ofRatio negative num den = .finite negative m e canonical := by
  have hstep : (0 : ℚ) < 2 ^ e := by positivity
  have hfit : (m : ℚ) + 1 ≤ 2 ^ (53 : ℤ) := by
    have : m + 1 ≤ 2 ^ 53 := canonical.1
    exact_mod_cast this
  have hbelow : (num : ℚ) / den < 2 ^ (e + 53) := by
    rw [zpow_add₀ (by norm_num), mul_comm]
    exact high.trans (mul_lt_mul_of_pos_right (by linarith) hstep)
  obtain ⟨hlog, hlog'⟩ := log2Ratio_spec hnum hden
  have hlogHigh := lt_of_zpow_le_of_lt_zpow hlog hbelow
  have hexponent : max (log2Ratio num den - 52) (-1074) = e := by
    have hlowest := canonical.2.1
    rcases full with heq | hle
    · omega
    · have := lt_of_zpow_le_of_lt_zpow hle hlog'
      omega
  have hrounded : roundedQuotient (scaledDown num den e).1 (scaledDown num den e).2 = m := by
    refine roundedQuotient_eq (scaledDown_pos hden num e) ?_ ?_
    · rw [scaledDown_div, lt_div_iff₀ hstep]; exact low
    · rw [scaledDown_div, div_lt_iff₀ hstep]; exact high
  simp only [ofRatio, hnum.ne', if_false, hexponent, hrounded]
  rw [if_neg canonical.1.ne, ofParts_eq]

/-- Below the number where a full mantissa begins the steps are half as wide, and a quotient within
half of such a step is rounded to it. -/
theorem ofRatio_eq_finite_of_below (hnum : 0 < num) (hden : 0 < den)
    (canonical : Canonical (twoTo 52) e) (notLowest : e ≠ -1074)
    (low : ((2 : ℚ) ^ 52 - 1 / 4) * 2 ^ e < num / den)
    (high : (num : ℚ) / den < 2 ^ 52 * 2 ^ e) :
    ofRatio negative num den = .finite negative (twoTo 52) e canonical := by
  have hhalf : (2 : ℚ) ^ e = 2 * 2 ^ (e - 1) := by
    rw [zpow_sub_one₀ (by norm_num)]; ring
  have hstep : (0 : ℚ) < 2 ^ (e - 1) := by positivity
  have hhigh : (num : ℚ) / den < 2 ^ (e + 52) := by
    rw [zpow_add₀ (by norm_num), mul_comm]
    exact high.trans_eq (by norm_num)
  have hlow : (2 : ℚ) ^ (e + 51) ≤ num / den := by
    rw [zpow_add₀ (by norm_num), mul_comm]
    exact (mul_le_mul_of_nonneg_right (by norm_num) (by positivity)).trans low.le
  obtain ⟨hlog, hlog'⟩ := log2Ratio_spec hnum hden
  have hexponent : max (log2Ratio num den - 52) (-1074) = e - 1 := by
    have hlowest := canonical.2.1
    have hlogLow := lt_of_zpow_le_of_lt_zpow hlow hlog'
    have hlogHigh := lt_of_zpow_le_of_lt_zpow hlog hhigh
    omega
  rw [hhalf] at low high
  -- With the smaller exponent the mantissa is rounded up to the next power of two.
  have hrounded : roundedQuotient (scaledDown num den (e - 1)).1 (scaledDown num den (e - 1)).2 =
      twoTo 53 := by
    refine roundedQuotient_eq (scaledDown_pos hden num _) ?_ ?_
    · rw [scaledDown_div, lt_div_iff₀ hstep, cast_twoTo]
      linarith
    · rw [scaledDown_div, div_lt_iff₀ hstep, cast_twoTo]
      linarith
  simp only [ofRatio, hnum.ne', if_false, hexponent, hrounded, if_true]
  have hback : e - 1 + 1 = e := by omega
  rw [hback, ofParts_eq]

/-- A quotient within half a step of a finite number is rounded to it, if it is within a quarter
where a full mantissa begins. -/
theorem ofRatio_eq_finite (hden : 0 < den) (hm : 0 < m) (canonical : Canonical m e)
    (low : ((m : ℚ) - 1 / 2) * 2 ^ e < num / den) (high : (num : ℚ) / den < (m + 1 / 2) * 2 ^ e)
    (quarter : m = twoTo 52 → ((m : ℚ) - 1 / 4) * 2 ^ e < num / den) :
    ofRatio negative num den = .finite negative m e canonical := by
  have hstep : (0 : ℚ) < 2 ^ e := by positivity
  have hnum : 0 < num := by
    refine Nat.pos_of_ne_zero fun h => ?_
    have hone : (1 : ℚ) ≤ m := by exact_mod_cast hm
    have hzero : (0 : ℚ) < (m - 1 / 2) * 2 ^ e := mul_pos (by linarith) hstep
    rw [h, Nat.cast_zero, zero_div] at low
    exact absurd (hzero.trans low) (lt_irrefl 0)
  by_cases hfull : e = -1074 ∨ (2 : ℚ) ^ (e + 52) ≤ num / den
  · exact ofRatio_eq_finite_of_full hnum hden canonical low high hfull
  · rw [not_or, not_le, zpow_add₀ (by norm_num), mul_comm ((2 : ℚ) ^ e)] at hfull
    obtain ⟨hnotLowest, hless⟩ := hfull
    have hbound : (m : ℚ) - 1 / 2 < 2 ^ 52 :=
      lt_of_mul_lt_mul_right (low.trans hless) hstep.le
    have hmantissa : m = twoTo 52 := by
      have hlt : (m : ℚ) < (2 ^ 52 + 1 : ℕ) := by push_cast; linarith
      exact le_antisymm (Nat.lt_succ_iff.mp (Nat.cast_lt.mp hlt))
        (canonical.2.2.2.resolve_left hnotLowest)
    subst hmantissa
    have hnear := quarter rfl
    rw [cast_twoTo] at hnear
    exact ofRatio_eq_finite_of_below hnum hden canonical hnotLowest hnear hless

/-! ## What is neither zero nor infinite -/

theorem half_le_of_roundedQuotient_ne_zero (hden : 0 < den) (h : roundedQuotient num den ≠ 0) :
    (1 : ℚ) / 2 ≤ num / den := by
  by_contra hless
  exact h (roundedQuotient_eq hden (by rw [Nat.cast_zero, zero_sub, neg_lt_iff_pos_add]; positivity)
    (by rw [Nat.cast_zero, zero_add]; exact not_le.mp hless))

theorem canonical_of_ofParts_eq_finite {sign : Bool} {m' : ℕ} {e' : ℤ} {h' : Canonical m' e'}
    (h : ofParts negative m e = .finite sign m' e' h') : m' = m ∧ Canonical m e := by
  unfold ofParts at h
  split at h
  · rename_i hcanonical
    cases h
    exact ⟨rfl, hcanonical⟩
  · cases h

/-- A quotient that is rounded to a finite number other than zero is neither too small nor too
large. -/
theorem bounds_of_ofRatio_eq_finite {sign : Bool} {canonical : Canonical m e} (hden : 0 < den)
    (hm : m ≠ 0) (h : ofRatio negative num den = .finite sign m e canonical) :
    (2 : ℚ) ^ (-1075 : ℤ) ≤ num / den ∧ (num : ℚ) / den < 2 ^ (1024 : ℤ) := by
  unfold ofRatio at h
  split at h
  · exact absurd (canonical_of_ofParts_eq_finite h).1 hm
  · rename_i hnum
    dsimp only at h
    obtain ⟨hlog, hlog'⟩ := log2Ratio_spec (Nat.pos_of_ne_zero hnum) hden
    generalize hexponent : max (log2Ratio num den - 52) (-1074) = E at h
    -- The mantissa was not rounded to zero, nor the exponent carried past the largest.
    have hrounded : roundedQuotient (scaledDown num den E).1 (scaledDown num den E).2 ≠ 0 ∧
        E ≤ 971 := by
      split at h
      · rename_i hcarry
        obtain ⟨-, hcanonical⟩ := canonical_of_ofParts_eq_finite h
        have hlargest := hcanonical.2.2.1
        exact ⟨hcarry ▸ (twoTo_pos 53).ne', by omega⟩
      · obtain ⟨heq, hcanonical⟩ := canonical_of_ofParts_eq_finite h
        exact ⟨heq ▸ hm, hcanonical.2.2.1⟩
    have hhalf := half_le_of_roundedQuotient_ne_zero (scaledDown_pos hden num E) hrounded.1
    rw [scaledDown_div, le_div_iff₀ (by positivity)] at hhalf
    constructor
    · calc (2 : ℚ) ^ (-1075 : ℤ) = 1 / 2 * 2 ^ (-1074 : ℤ) := by
            rw [show (-1075 : ℤ) = -1074 - 1 by norm_num, zpow_sub_one₀ (by norm_num)]; ring
        _ ≤ 1 / 2 * 2 ^ E := mul_le_mul_of_nonneg_left
            (zpow_le_zpow_right₀ (by norm_num) (by omega)) (by norm_num)
        _ ≤ num / den := hhalf
    · exact hlog'.trans_le (zpow_le_zpow_right₀ (by norm_num) (by omega))

end Binary64

end CardImport
