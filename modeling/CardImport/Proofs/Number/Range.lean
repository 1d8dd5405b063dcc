import CardImport.Number.Basic
import CardImport.Proofs.Number.Rounding

/-!
# Whole numbers in the range of binary ones

What is below the largest power of two is rounded to a finite number.
-/

namespace CardImport

theorem twoTo_lt_twoTo {j k : ℕ} (h : j < k) : twoTo j < twoTo k :=
  Nat.pow_lt_pow_right (by decide) h

theorem twoTo_add (j k : ℕ) : twoTo (j + k) = twoTo j * twoTo k := Nat.pow_add 2 j k

theorem cast_lt_zpow {n k : ℕ} (h : n < twoTo k) : (n : ℚ) < 2 ^ (k : ℤ) := by
  rw [zpow_natCast, ← cast_twoTo]
  exact_mod_cast h

namespace Binary64

theorem isFinite_ofParts {negative : Bool} {m : ℕ} {e : ℤ} (h : Canonical m e) :
    (ofParts negative m e).isFinite = true := by
  rw [ofParts_eq h]
  rfl

/-- The mantissa of a quotient: below the next power of two, and full unless the exponent is the
lowest. -/
theorem mantissa_bounds {num den : ℕ} (hnum : 0 < num) (hden : 0 < den) {e : ℤ}
    (he : max (log2Ratio num den - 52) (-1074) = e) :
    roundedQuotient (scaledDown num den e).1 (scaledDown num den e).2 ≤ twoTo 53 ∧
      (e = -1074 ∨
        twoTo 52 ≤ roundedQuotient (scaledDown num den e).1 (scaledDown num den e).2) := by
  obtain ⟨hlow, hhigh⟩ := log2Ratio_spec hnum hden
  have hstep : (0 : ℚ) < 2 ^ e := by positivity
  have hscaled := scaledDown_div num den e
  have hpos := scaledDown_pos hden num e
  generalize scaledDown num den e = scaled at hscaled hpos ⊢
  obtain ⟨n, d⟩ := scaled
  have hd : (0 : ℚ) < d := by exact_mod_cast hpos
  have hbelow : n / d < twoTo 53 := by
    have hlt : (n : ℚ) / d < 2 ^ (53 : ℤ) := by
      rw [hscaled, div_lt_iff₀ hstep, ← zpow_add₀ (by norm_num)]
      exact hhigh.trans_le (zpow_le_zpow_right₀ (by norm_num) (by omega))
    rw [Nat.div_lt_iff_lt_mul hpos]
    rw [div_lt_iff₀ hd] at hlt
    exact_mod_cast hlt
  -- Rounding adds one at most, which the strict bound allows for.
  refine ⟨?_, ?_⟩
  · rcases roundedQuotient_or n d with h | h <;> rw [h]
    · exact hbelow.le
    · exact hbelow
  · rcases le_or_gt (log2Ratio num den - 52) (-1074) with hlowest | hnot
    · exact Or.inl (by omega)
    · refine Or.inr ?_
      have hfull : twoTo 52 ≤ n / d := by
        have hle : (2 : ℚ) ^ (52 : ℤ) ≤ n / d := by
          rw [hscaled, le_div_iff₀ hstep, ← zpow_add₀ (by norm_num)]
          exact (zpow_le_zpow_right₀ (by norm_num) (by omega)).trans hlow
        rw [Nat.le_div_iff_mul_le hpos]
        rw [le_div_iff₀ hd] at hle
        exact_mod_cast hle
      rcases roundedQuotient_or n d with h | h <;> rw [h]
      · exact hfull
      · exact hfull.trans (Nat.le_succ _)

/-- A quotient below the largest power of two is rounded to a finite number. -/
theorem isFinite_ofRatio {num den : ℕ} (hden : 0 < den) (h : (num : ℚ) / den < 2 ^ (1023 : ℤ))
    (negative : Bool) : (ofRatio negative num den).isFinite = true := by
  unfold ofRatio
  split
  · exact isFinite_ofParts (by decide +kernel)
  · rename_i hnum
    dsimp only
    obtain ⟨hlog, hlog'⟩ := log2Ratio_spec (Nat.pos_of_ne_zero hnum) hden
    have hhigh := lt_of_zpow_le_of_lt_zpow hlog h
    generalize hexponent : max (log2Ratio num den - 52) (-1074) = e
    obtain ⟨hmantissa, hfull⟩ := mantissa_bounds (Nat.pos_of_ne_zero hnum) hden hexponent
    split
    · exact isFinite_ofParts ⟨twoTo_lt_twoTo (by decide), by omega, by omega, Or.inr le_rfl⟩
    · rename_i hcarry
      exact isFinite_ofParts ⟨lt_of_le_of_ne hmantissa hcarry, by omega, by omega, hfull⟩

/-- What is rounded stays below a power of two, or comes to it. -/
theorem natAbs_units_ofRatio {num den k : ℕ} (hden : 0 < den) (h : (num : ℚ) / den < 2 ^ (k : ℤ))
    (negative : Bool) : (ofRatio negative num den).units.natAbs ≤ twoTo (k + 1074) := by
  have hparts : ∀ m : ℕ, ∀ e : ℤ, m * twoTo (e + 1074).toNat ≤ twoTo (k + 1074) →
      (ofParts negative m e).units.natAbs ≤ twoTo (k + 1074) := by
    intro m e hm
    unfold ofParts
    split
    · cases negative <;> simpa [units, Int.natAbs_mul] using hm
    · exact Nat.zero_le _
  unfold ofRatio
  split
  · exact hparts 0 _ (by rw [Nat.zero_mul]; exact Nat.zero_le _)
  · rename_i hnum
    dsimp only
    obtain ⟨hlog, -⟩ := log2Ratio_spec (Nat.pos_of_ne_zero hnum) hden
    have hhigh := lt_of_zpow_le_of_lt_zpow hlog h
    generalize hexponent : max (log2Ratio num den - 52) (-1074) = e
    obtain ⟨hmantissa, -⟩ := mantissa_bounds (Nat.pos_of_ne_zero hnum) hden hexponent
    have hproduct : ∀ {m j i : ℕ}, m ≤ twoTo j → j + i ≤ k + 1074 →
        m * twoTo i ≤ twoTo (k + 1074) := by
      intro m j i hm hji
      calc m * twoTo i ≤ twoTo j * twoTo i := Nat.mul_le_mul_right _ hm
        _ = twoTo (j + i) := (twoTo_add j i).symm
        _ ≤ twoTo (k + 1074) := Nat.pow_le_pow_right (by decide) hji
    split
    · exact hparts _ _ (hproduct le_rfl (by omega))
    · exact hparts _ _ (hproduct hmantissa (by omega))

/-- A product whose exact value is below the largest power of two is finite. -/
theorem isFinite_mul {x y : Binary64} (hx : x.isFinite = true) (hy : y.isFinite = true)
    (h : x.units.natAbs * y.units.natAbs < twoTo 1023 * (unit * unit)) :
    (x.mul y).isFinite = true := by
  cases x with
  | finite a m e hm =>
      cases y with
      | finite b n k hn =>
          have hunit : 0 < unit := twoTo_pos 1074
          rw [mul]
          generalize unit = u at h hunit ⊢
          have hsquare : 0 < u * u := Nat.mul_pos hunit hunit
          refine isFinite_ofRatio hsquare ?_ (a != b)
          rw [div_lt_iff₀ (by exact_mod_cast hsquare)]
          have hcast := (Nat.cast_lt (α := ℚ)).mpr h
          rw [Nat.cast_mul (twoTo 1023), cast_twoTo, ← zpow_natCast] at hcast
          exact hcast
      | _ => cases hy
  | _ => cases hx

theorem div_lt_zpow {n d k : ℕ} (hd : 0 < d) (h : n < twoTo k) : (n : ℚ) / d < 2 ^ (k : ℤ) := by
  have hone : (1 : ℚ) ≤ d := by exact_mod_cast hd
  exact (div_le_self (Nat.cast_nonneg _) hone).trans_lt (cast_lt_zpow h)

theorem ofQuotient?_eq {n : ℤ} {d : ℕ} (hd : 0 < d) (h : n.natAbs < twoTo 1023) :
    ofQuotient? n d = some (ofRatio (n < 0) n.natAbs d) :=
  if_pos (isFinite_ofRatio hd (div_lt_zpow hd h) _)

end Binary64

namespace Number

theorem exists_divNat {n : ℤ} {d : ℕ} (hd : 0 < d) (h : n.natAbs < twoTo 1023) :
    ∃ x, divNat (.whole n) d = .ok x := by
  rw [divNat, Binary64.ofQuotient?_eq hd h]
  exact ⟨_, rfl⟩

theorem exists_toBinary {n : ℤ} (h : n.natAbs < twoTo 1023) :
    ∃ x, toBinary (.whole n) = .ok x := by
  have hint : Binary64.ofInt? n = Binary64.ofQuotient? n 1 := rfl
  rw [toBinary, hint, Binary64.ofQuotient?_eq Nat.one_pos h]
  exact ⟨_, rfl⟩

/-! ## Comparing whole numbers -/

theorem le_whole (m n : ℤ) : (Number.whole m).le (.whole n) = true ↔ m ≤ n := by
  have hgt : compare m n = .gt ↔ n < m := Int.compare_eq_gt
  simp only [Number.le, Number.compare?]
  rw [← Int.not_lt, ← hgt]
  cases compare m n <;> decide

theorem eq_whole (m n : ℤ) : (Number.whole m).eq (.whole n) = true ↔ m = n := by
  rw [← Int.compare_eq_eq]
  simp [Number.eq, Number.compare?]

theorem lt_whole (m n : ℤ) : (Number.whole m).lt (.whole n) = true ↔ m < n := by
  rw [← Int.compare_eq_lt]
  simp [Number.lt, Number.compare?]

end Number

end CardImport
