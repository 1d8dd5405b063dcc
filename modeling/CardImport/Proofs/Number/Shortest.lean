import CardImport.Proofs.Number.Rounding
import Mathlib.Algebra.Order.Floor.Semifield
import Mathlib.Data.Nat.Cast.Order.Field
import Mathlib.Data.Rat.Floor

/-!
# The fewest digits that read back

Of the two neighbours of 17 digits that a finite number has, one at least is within a quarter of a
step of it, since 17 digits are finer than 53 bits. So the search for the fewest digits succeeds,
and what it finds is rounded to the number.
-/

namespace CardImport

/-! ## Decimals and their values -/

def Decimal.value (d : Decimal) : ℚ := d.digits * 10 ^ d.exponent

theorem shifted_pos {den : ℕ} (h : 0 < den) (num : ℕ) (e : ℤ) :
    0 < (Binary64.shifted num den e).2 := by
  cases e with
  | ofNat k => exact Nat.mul_pos h (tenTo_pos k)
  | negSucc k => exact h

theorem shifted_div (num den : ℕ) (e : ℤ) :
    ((Binary64.shifted num den e).1 : ℚ) / (Binary64.shifted num den e).2 = num / den / 10 ^ e := by
  cases e with
  | ofNat k =>
      simp only [Binary64.shifted, Nat.cast_mul, cast_tenTo, Int.ofNat_eq_natCast, zpow_natCast]
      rw [div_mul_eq_div_div]
  | negSucc k =>
      simp only [Binary64.shifted, Nat.cast_mul, cast_tenTo, zpow_negSucc]
      rw [div_inv_eq_mul, mul_div_right_comm]

namespace Binary64

variable {negative : Bool} {m : ℕ} {e : ℤ}

/-- A decimal is rounded as a quotient that has its value. -/
theorem exists_ratio_of_decimal (d : Decimal) : ∃ num den : ℕ, 0 < den ∧ (num : ℚ) / den = d.value ∧
    ∀ negative, ofDecimal negative d = ofRatio negative num den := by
  obtain ⟨digits, exponent⟩ := d
  cases exponent with
  | ofNat k =>
      refine ⟨digits * tenTo k, 1, Nat.one_pos, ?_, fun _ => rfl⟩
      rw [Decimal.value, Nat.cast_mul, cast_tenTo, Nat.cast_one, div_one, Int.ofNat_eq_natCast,
        zpow_natCast]
  | negSucc k =>
      refine ⟨digits, tenTo (k + 1), tenTo_pos _, ?_, fun _ => rfl⟩
      rw [Decimal.value, cast_tenTo, zpow_negSucc, div_eq_mul_inv]

/-- Decimals of one value are rounded to one number. -/
theorem ofDecimal_congr {c d : Decimal} (h : c.value = d.value) :
    ofDecimal negative c = ofDecimal negative d := by
  obtain ⟨num, den, hden, hc, hnum⟩ := exists_ratio_of_decimal c
  obtain ⟨num', den', hden', hd, hnum'⟩ := exists_ratio_of_decimal d
  rw [hnum, hnum']
  refine ofRatio_congr hden hden' ?_
  rw [← hc, ← hd, div_eq_div_iff (by positivity) (by positivity)] at h
  exact_mod_cast h

/-- A decimal that is rounded to a finite number other than zero is neither too small nor too
large. -/
theorem bounds_of_ofDecimal_eq_finite {sign : Bool} {canonical : Canonical m e} {d : Decimal}
    (hm : m ≠ 0) (h : ofDecimal negative d = .finite sign m e canonical) :
    (2 : ℚ) ^ (-1075 : ℤ) ≤ d.value ∧ d.value < 2 ^ (1024 : ℤ) := by
  obtain ⟨num, den, hden, hvalue, hround⟩ := exists_ratio_of_decimal d
  rw [hround] at h
  rw [← hvalue]
  exact bounds_of_ofRatio_eq_finite hden hm h

/-- A decimal that differs by less than a part in `2 * 10 ^ 16` reads back. -/
theorem ofDecimal_eq_finite {d : Decimal} (hm : 0 < m) (canonical : Canonical m e)
    (low : m * 2 ^ e - m * 2 ^ e / (2 * 10 ^ 16) ≤ d.value)
    (high : d.value ≤ m * 2 ^ e + m * 2 ^ e / (2 * 10 ^ 16)) :
    ofDecimal negative d = .finite negative m e canonical := by
  obtain ⟨num, den, hden, hvalue, hround⟩ := exists_ratio_of_decimal d
  rw [hround]
  have hstep : (0 : ℚ) < 2 ^ e := by positivity
  have hfit : (m : ℚ) < 2 ^ 53 := by exact_mod_cast canonical.1
  have hhalf : (m : ℚ) * 2 ^ e / (2 * 10 ^ 16) < 1 / 2 * 2 ^ e := by
    rw [mul_div_right_comm]
    exact mul_lt_mul_of_pos_right (by linarith) hstep
  refine ofRatio_eq_finite hden hm canonical ?_ ?_ fun hfull => ?_
  · rw [hvalue]; linarith
  · rw [hvalue]; linarith
  · have hquarter : (m : ℚ) * 2 ^ e / (2 * 10 ^ 16) < 1 / 4 * 2 ^ e := by
      rw [hfull, cast_twoTo, mul_div_right_comm]
      exact mul_lt_mul_of_pos_right (by norm_num) hstep
    rw [hvalue]
    linarith

/-! ## The quotient of a number -/

theorem ratio_pos (x : Binary64) : 0 < x.ratio.2 := by
  cases x with
  | nan => exact Nat.one_pos
  | infinite negative => exact Nat.one_pos
  | finite negative m e canonical =>
      cases e with
      | ofNat k => exact Nat.one_pos
      | negSucc k => exact twoTo_pos _

theorem ratio_div (canonical : Canonical m e) :
    ((finite negative m e canonical).ratio.1 : ℚ) / (finite negative m e canonical).ratio.2 =
      m * 2 ^ e := by
  cases e with
  | ofNat k =>
      simp only [ratio, Nat.cast_mul, cast_twoTo, Nat.cast_one, div_one, Int.ofNat_eq_natCast,
        zpow_natCast]
  | negSucc k => simp only [ratio, cast_twoTo, zpow_negSucc, div_eq_mul_inv]

theorem ratio_ne_zero (canonical : Canonical m e) (hm : m ≠ 0) :
    (finite negative m e canonical).ratio.1 ≠ 0 := by
  intro h
  have hdiv := @ratio_div negative m e canonical
  rw [h, Nat.cast_zero, zero_div] at hdiv
  have : (0 : ℚ) < m * 2 ^ e := by positivity
  exact this.ne hdiv

/-! ## The decimal logarithm -/

/-- The estimate of the decimal logarithm is at most one too high. -/
theorem ten_zpow_estimate_le {k : ℤ} (low : -1074 ≤ k) (high : k ≤ 1023) :
    (10 : ℚ) ^ (k * 30103 / 100000 - 1) ≤ 2 ^ k := by
  rcases Int.le_total 0 k with hk | hk
  · obtain ⟨n, rfl⟩ := Int.eq_ofNat_of_zero_le hk
    have hall : ∀ n < 1024, 10 ^ (n * 30103 / 100000) ≤ 10 * 2 ^ n := by decide +kernel
    have h : (10 : ℚ) ^ (n * 30103 / 100000) ≤ 10 * 2 ^ n := by
      exact_mod_cast hall n (by omega)
    have hguess : (n : ℤ) * 30103 / 100000 = (n * 30103 / 100000 : ℕ) := by push_cast; rfl
    rw [hguess, zpow_sub_one₀ (by norm_num), zpow_natCast, zpow_natCast]
    linarith
  · obtain ⟨n, rfl⟩ := Int.exists_eq_neg_ofNat hk
    have hall : ∀ n < 1075, 2 ^ n ≤ 10 ^ ((n * 30103 + 99999) / 100000 + 1) := by decide +kernel
    have h : (2 : ℚ) ^ n ≤ 10 ^ ((n * 30103 + 99999) / 100000 + 1) := by
      exact_mod_cast hall n (by omega)
    have hguess : -(n : ℤ) * 30103 / 100000 - 1 =
        -(((n * 30103 + 99999) / 100000 + 1 : ℕ) : ℤ) := by
      push_cast
      omega
    rw [hguess, zpow_neg, zpow_neg, zpow_natCast, zpow_natCast]
    exact inv_anti₀ (by positivity) h

theorem log10Ratio_le {num den : ℕ} (hden : 0 < den)
    (low : (2 : ℚ) ^ (-1074 : ℤ) ≤ num / den) (high : (num : ℚ) / den < 2 ^ (1024 : ℤ)) :
    (10 : ℚ) ^ log10Ratio num den ≤ num / den := by
  have hnum : 0 < num := by
    refine Nat.pos_of_ne_zero fun h => ?_
    rw [h, Nat.cast_zero, zero_div] at low
    exact absurd low (not_le.mpr (by positivity))
  obtain ⟨hlog, hlog'⟩ := log2Ratio_spec hnum hden
  have hlogLow := lt_of_zpow_le_of_lt_zpow low hlog'
  have hlogHigh := lt_of_zpow_le_of_lt_zpow hlog high
  have hguess := ten_zpow_estimate_le (k := log2Ratio num den) (by omega) (by omega)
  have hpos : (0 : ℚ) < (shifted num den (log2Ratio num den * 30103 / 100000)).2 := by
    exact_mod_cast shifted_pos hden num _
  have hshifted := shifted_div num den (log2Ratio num den * 30103 / 100000)
  -- The estimate is off by one at most, and one comparison each way finds out.
  unfold log10Ratio
  dsimp only
  split
  · exact hguess.trans hlog
  · rename_i hnotLess
    split
    · rename_i hten
      have hle : (10 : ℚ) ≤ num / den / 10 ^ (log2Ratio num den * 30103 / 100000) := by
        rw [← hshifted, le_div_iff₀ hpos, mul_comm]
        exact_mod_cast hten
      rw [le_div_iff₀ (by positivity)] at hle
      rw [zpow_add_one₀ (by norm_num), mul_comm]
      exact hle
    · have hle : (1 : ℚ) ≤ num / den / 10 ^ (log2Ratio num den * 30103 / 100000) := by
        rw [← hshifted, le_div_iff₀ hpos, one_mul]
        exact_mod_cast not_lt.mp hnotLess
      rwa [le_div_iff₀ (by positivity), one_mul] at hle

/-- A finite number other than zero lies within these powers of two. -/
theorem bounds_of_canonical (hm : m ≠ 0) (canonical : Canonical m e) :
    (2 : ℚ) ^ (-1074 : ℤ) ≤ m * 2 ^ e ∧ (m : ℚ) * 2 ^ e < 2 ^ (1024 : ℤ) := by
  obtain ⟨hfit, hlowest, hlargest, -⟩ := canonical
  have hone : (1 : ℚ) ≤ m := by exact_mod_cast Nat.one_le_iff_ne_zero.mpr hm
  have hless : (m : ℚ) < 2 ^ (53 : ℤ) := by exact_mod_cast hfit
  constructor
  · calc (2 : ℚ) ^ (-1074 : ℤ) ≤ 2 ^ e := zpow_le_zpow_right₀ (by norm_num) hlowest
      _ ≤ m * 2 ^ e := le_mul_of_one_le_left (by positivity) hone
  · calc (m : ℚ) * 2 ^ e < 2 ^ (53 : ℤ) * 2 ^ e := mul_lt_mul_of_pos_right hless (by positivity)
      _ = 2 ^ (53 + e) := (zpow_add₀ (by norm_num) _ _).symm
      _ ≤ 2 ^ (1024 : ℤ) := zpow_le_zpow_right₀ (by norm_num) (by omega)

/-! ## The search -/

theorem ofDecimal_of_neighbour? {x : Binary64} {lead : ℤ} {count : ℕ} {c : Decimal}
    (h : neighbour? x lead count = some c) : ofDecimal x.isNegative c = x := by
  unfold neighbour? at h
  dsimp only at h
  split at h
  · cases h
  · rename_i hbelow _
    cases h
    exact eq_of_beq hbelow
  · rename_i _ habove
    cases h
    exact eq_of_beq habove
  · rename_i hbelow habove
    cases h
    rcases roundedQuotient_or (shifted x.ratio.1 x.ratio.2 (lead - count + 1)).1
      (shifted x.ratio.1 x.ratio.2 (lead - count + 1)).2 with heq | heq
    · rw [heq]; exact eq_of_beq hbelow
    · rw [heq]; exact eq_of_beq habove

/-- Of the two neighbours of a quotient, one is within half a unit of it. -/
theorem near_below_or_above {num den : ℕ} {q unit : ℚ} (hunit : 0 < unit)
    (h : (num : ℚ) / den = q / unit) :
    ((num / den : ℕ) * unit ≤ q ∧ q ≤ (num / den : ℕ) * unit + unit / 2) ∨
      (q ≤ (num / den + 1 : ℕ) * unit ∧ (num / den + 1 : ℕ) * unit ≤ q + unit / 2) := by
  have hlow : ((num / den : ℕ) : ℚ) ≤ q / unit := h ▸ Nat.cast_div_le
  have hhigh : q / unit < (num / den : ℕ) + 1 := by
    rw [← h, ← Nat.floor_div_eq_div (K := ℚ)]
    exact Nat.lt_floor_add_one _
  rw [le_div_iff₀ hunit] at hlow
  rw [div_lt_iff₀ hunit] at hhigh
  rw [Nat.cast_add_one]
  rcases le_total q ((num / den : ℕ) * unit + unit / 2) with hhalf | hhalf
  · exact Or.inl ⟨hlow, hhalf⟩
  · exact Or.inr ⟨hhigh.le, by linarith⟩

/-- 17 digits always suffice. -/
theorem exists_neighbour? (hm : m ≠ 0) (canonical : Canonical m e) {lead : ℤ}
    (hlead : (10 : ℚ) ^ lead ≤ m * 2 ^ e) :
    ∃ c, neighbour? (finite negative m e canonical) lead 17 = some c := by
  have hdiv := shifted_div (finite negative m e canonical).ratio.1
    (finite negative m e canonical).ratio.2 (lead - (17 : ℕ) + 1)
  rw [ratio_div canonical] at hdiv
  have hunit : (10 : ℚ) ^ (lead - (17 : ℕ) + 1) / 2 ≤ m * 2 ^ e / (2 * 10 ^ 16) := by
    rw [div_le_div_iff₀ (by norm_num) (by norm_num), show lead - (17 : ℕ) + 1 = lead - 16 by omega,
      zpow_sub₀ (by norm_num)]
    norm_num
    linarith
  unfold neighbour?
  dsimp only
  generalize shifted (finite negative m e canonical).ratio.1
    (finite negative m e canonical).ratio.2 (lead - (17 : ℕ) + 1) = scaled at hdiv ⊢
  generalize lead - (17 : ℕ) + 1 = low at hunit hdiv ⊢
  -- With 17 digits the decimals next to the number are so near that one of them is read as it.
  have hreads : (ofDecimal negative ⟨scaled.1 / scaled.2, low⟩ == finite negative m e canonical) =
      true ∨ (ofDecimal negative ⟨scaled.1 / scaled.2 + 1, low⟩ == finite negative m e canonical) =
      true := by
    rw [beq_iff_eq, beq_iff_eq]
    have hpos := Nat.pos_of_ne_zero hm
    rcases near_below_or_above (by positivity) hdiv with ⟨hle, hnear⟩ | ⟨hle, hnear⟩
    · left
      refine ofDecimal_eq_finite hpos canonical ?_ ?_
      · rw [Decimal.value]; linarith
      · rw [Decimal.value]
        exact hle.trans (le_add_of_nonneg_right (by positivity))
    · right
      refine ofDecimal_eq_finite hpos canonical ?_ ?_
      · rw [Decimal.value]
        exact (sub_le_self _ (by positivity)).trans hle
      · rw [Decimal.value]; linarith
  split
  · rename_i hbelow habove
    rcases hreads with h | h
    · cases hbelow.symm.trans h
    · cases habove.symm.trans h
  · exact ⟨_, rfl⟩
  · exact ⟨_, rfl⟩
  · exact ⟨_, rfl⟩

theorem value_trimmed (fuel : ℕ) (c : Decimal) : (trimmed fuel c).value = c.value := by
  induction fuel generalizing c with
  | zero => rfl
  | succ fuel ih =>
      rw [trimmed]
      split
      · rename_i h
        rw [ih, Decimal.value, Decimal.value]
        have hdigits : (c.digits : ℚ) = (c.digits / 10 : ℕ) * 10 := by
          exact_mod_cast (Nat.div_mul_cancel (Nat.dvd_of_mod_eq_zero h.1)).symm
        rw [hdigits, zpow_add_one₀ (by norm_num)]
        ring
      · rfl

/-- The fewest digits read back. -/
theorem ofDecimal_shortest (hm : m ≠ 0) (canonical : Canonical m e) :
    ofDecimal negative (shortest (finite negative m e canonical)) =
      finite negative m e canonical := by
  obtain ⟨hlow, hhigh⟩ := bounds_of_canonical hm canonical
  rw [← @ratio_div negative m e canonical] at hlow hhigh
  have hlead := log10Ratio_le (ratio_pos _) hlow hhigh
  rw [ratio_div canonical] at hlead
  obtain ⟨last, hlast⟩ := @exists_neighbour? negative m e hm canonical _ hlead
  rw [shortest]
  dsimp only
  rw [if_neg (ratio_ne_zero canonical hm)]
  generalize hfound : (List.range 17).findSome? _ = found
  cases found with
  | none =>
      have hnone := List.findSome?_eq_none_iff.mp hfound 16 (by decide)
      rw [hlast] at hnone
      cases hnone
  | some c =>
      obtain ⟨count, -, hcount⟩ := List.exists_of_findSome?_eq_some hfound
      rw [Option.getD_some, ofDecimal_congr (value_trimmed 17 c)]
      exact ofDecimal_of_neighbour? hcount

end Binary64

end CardImport
