import CardImport.Proofs.Number.Exact
import CardImport.Proofs.Number.Shortest

/-!
# Quotients by powers of two

A whole number of 53 bits over a power of two is a binary number, so nothing is rounded where it is
divided, however often. What is rounded is the text, once, to the places that are written.
-/

namespace CardImport

theorem roundedQuotient_congr {num den num' den' : ℕ} (hden : 0 < den) (hden' : 0 < den')
    (h : num * den' = num' * den) : roundedQuotient num den = roundedQuotient num' den' := by
  rw [← roundedQuotient_mul hden', h, Nat.mul_comm den, roundedQuotient_mul hden]

/-- Rounding moves a quotient by half a step at most. -/
theorem abs_roundedQuotient_sub_le {n d : ℕ} (hd : 0 < d) :
    |(roundedQuotient n d : ℚ) - n / d| ≤ 1 / 2 := by
  obtain ⟨hlow, hhigh, -⟩ := roundedQuotient_near (n := n) hd rfl
  generalize roundedQuotient n d = r at hlow hhigh ⊢
  have hpos : (0 : ℚ) < d := by exact_mod_cast hd
  have hlow' : 2 * (d * r : ℚ) ≤ 2 * n + d := by exact_mod_cast hlow
  have hhigh' : 2 * (n : ℚ) ≤ 2 * (d * r) + d := by exact_mod_cast hhigh
  have hquotient : (r : ℚ) - n / d = (d * r - n) / d := by
    rw [sub_div, mul_div_cancel_left₀ _ hpos.ne']
  rw [hquotient, abs_div, abs_of_pos hpos, div_le_iff₀ hpos, abs_le]
  constructor <;> linarith

namespace Binary64

/-! ## Exact quotients -/

variable {n i j : ℕ}

theorem twoTo_sub_mul (hj : j ≤ 1074) : twoTo (1074 - j) * twoTo j = unit := by
  rw [← twoTo_add, Nat.sub_add_cancel hj]
  rfl

/-- The quotient of a whole number of 53 bits by a power of two is finite, and exact in units. -/
theorem exists_ofRatio_twoTo (hn : n < twoTo 53) (hj : j ≤ 1074) :
    ∃ m e, ∃ canonical : Canonical m e, ofRatio false n (twoTo j) = .finite false m e canonical ∧
      m * twoTo (e + 1074).toNat = n * twoTo (1074 - j) := by
  have hunits : Canonical n (-1074) := ⟨hn, le_rfl, by decide, Or.inl rfl⟩
  have hone : n * twoTo (-1074 + 1074 : ℤ).toNat = n := Nat.mul_one n
  have hparts := exists_canonical_mul hunits (1074 - j)
  rw [hone] at hparts
  rcases hparts with ⟨m, e, canonical, heq⟩ | hlarge
  · refine ⟨m, e, canonical, ofRatio_exact (twoTo_pos j) canonical ?_, heq⟩
    rw [heq, Nat.mul_assoc, twoTo_sub_mul hj]
  · have hless : n * twoTo (1074 - j) < limit := by
      calc n * twoTo (1074 - j) < twoTo 53 * twoTo (1074 - j) :=
            Nat.mul_lt_mul_of_pos_right hn (twoTo_pos _)
        _ ≤ twoTo 1024 * unit := Nat.mul_le_mul (twoTo_lt_twoTo (by decide)).le
            ((Nat.le_mul_of_pos_right _ (twoTo_pos j)).trans_eq (twoTo_sub_mul hj))
    exact absurd hlarge (Nat.not_le.mpr hless)

/-- Whether such a quotient is below a whole number is seen before it is divided. -/
theorem compareInt?_ofRatio_twoTo (hn : n < twoTo 53) (hj : j ≤ 1074) (k : ℕ) :
    (ofRatio false n (twoTo j)).compareInt? k = some .lt ↔ n < k * twoTo j := by
  obtain ⟨m, e, canonical, hquotient, heq⟩ := exists_ofRatio_twoTo hn hj
  have hunits : (units (.finite false m e canonical)) = (n * twoTo (1074 - j) : ℕ) :=
    congrArg Nat.cast heq
  rw [hquotient, Number.compareInt?_of_isFinite rfl, hunits, Option.some.injEq, Int.compare_eq_lt,
    ← twoTo_sub_mul hj, Nat.mul_comm (twoTo (1074 - j)), ← Nat.cast_mul, Int.ofNat_lt,
    ← Nat.mul_assoc]
  exact Nat.mul_lt_mul_right (twoTo_pos _)

/-- To divide by one power of two after another is to divide by their product. -/
theorem div?_ofRatio_twoTo (hn : n < twoTo 53) (hj : j ≤ 1074) (hi : i ≤ 1023) :
    (ofRatio false n (twoTo j)).div? (ofNat (twoTo i)) =
      some (ofRatio false n (twoTo (j + i))) := by
  obtain ⟨m, e, canonical, hquotient, heq⟩ := exists_ofRatio_twoTo hn hj
  rw [hquotient, ofNat, ofInt_twoTo hi, div?, if_neg (twoTo_pos 52).ne']
  simp only [natAbs_units_twoTo hi, natAbs_units, heq, Bool.bne_false]
  refine congrArg some (ofRatio_congr (Nat.mul_pos (twoTo_pos i) unit_pos) (twoTo_pos _) ?_)
  rw [← twoTo_sub_mul hj, twoTo_add]
  ring

/-! ## Places -/

/-- The quotient of a finite number stands for its units. -/
theorem ratio_mul_unit {negative : Bool} {m : ℕ} {e : ℤ} (canonical : Canonical m e) :
    (ratio (.finite negative m e canonical)).1 * unit =
      m * twoTo (e + 1074).toNat * (ratio (.finite negative m e canonical)).2 := by
  cases e with
  | ofNat k =>
      have hexponent : (Int.ofNat k + 1074).toNat = k + 1074 := by
        rw [Int.ofNat_eq_natCast]
        omega
      rw [ratio, hexponent, twoTo_add, Nat.mul_one, Nat.mul_assoc]
      rfl
  | negSucc k =>
      have hlow : k + 1 ≤ 1074 := by
        have := canonical.2.1
        omega
      have hexponent : (Int.negSucc k + 1074).toNat = 1074 - (k + 1) := by omega
      rw [ratio, hexponent, Nat.mul_assoc, twoTo_sub_mul hlow]

/-- What is written is the exact quotient, rounded to the places. -/
theorem roundedPlaces_ofRatio_twoTo (hn : n < twoTo 53) (hj : j ≤ 1074) (places : ℕ) :
    (ofRatio false n (twoTo j)).roundedPlaces places =
      roundedQuotient (n * tenTo places) (twoTo j) := by
  obtain ⟨m, e, canonical, hquotient, heq⟩ := exists_ofRatio_twoTo hn hj
  have hratio := @ratio_mul_unit false m e canonical
  have hden := ratio_pos (.finite false m e canonical)
  rw [hquotient, roundedPlaces]
  generalize ratio (.finite false m e canonical) = quotient at hratio hden
  refine roundedQuotient_congr hden (twoTo_pos j) ?_
  apply Nat.eq_of_mul_eq_mul_right (twoTo_pos (1074 - j))
  rw [heq, ← twoTo_sub_mul hj] at hratio
  calc quotient.1 * tenTo places * twoTo j * twoTo (1074 - j)
      = tenTo places * (quotient.1 * (twoTo (1074 - j) * twoTo j)) := by ring
    _ = n * tenTo places * quotient.2 * twoTo (1074 - j) := by rw [hratio]; ring

/-- With one place, the text is the whole number of tenths, and the last digit behind the point. -/
theorem fixed_one_ofRatio_twoTo (hn : n < twoTo 53) (hj : j ≤ 1074) {tenths : ℕ}
    (htenths : roundedQuotient (n * 10) (twoTo j) = tenths) :
    (ofRatio false n (twoTo j)).fixed 1 =
      toString (tenths / 10) ++ "." ++ toString (tenths % 10) := by
  have hplaces : (ofRatio false n (twoTo j)).roundedPlaces 1 = tenths :=
    (roundedPlaces_ofRatio_twoTo hn hj 1).trans htenths
  obtain ⟨m, e, canonical, hquotient, -⟩ := exists_ofRatio_twoTo hn hj
  rw [hquotient] at hplaces ⊢
  have hpart : padLeft 1 (Nat.toDigits 10 (tenths % 10)) = Nat.toDigits 10 (tenths % 10) := by
    rw [Nat.toDigits_of_lt_base (Nat.mod_lt _ (by decide))]
    rfl
  have hchars : fixedChars (.finite false m e canonical) 1 =
      Nat.toDigits 10 (tenths / 10) ++ '.' :: Nat.toDigits 10 (tenths % 10) := by
    rw [fixedChars, hplaces, if_neg one_ne_zero]
    exact congrArg (Nat.toDigits 10 (tenths / 10) ++ '.' :: ·) hpart
  apply String.toList_injective
  rw [fixed, String.toList_ofList, hchars]
  simp only [String.toList_append, Nat.toString_eq_repr, Nat.toList_repr, List.append_assoc]
  rfl

end Binary64

end CardImport
