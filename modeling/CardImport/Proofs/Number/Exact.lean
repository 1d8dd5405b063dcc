import CardImport.Proofs.Number.Range

/-!
# Exact results

A quotient that is a finite number is rounded to that number, so a product with a power of two is
exact unless it is too large. Values are given in units of the smallest finite number above 0, as
whole numbers, and numbers are compared by them, whether they are whole or binary.
-/

namespace CardImport

/-! ## The order of rounded quotients -/

/-- Rounding goes to the nearest whole number, and to an even one if two are as near. -/
theorem roundedQuotient_near {n d : ℕ} (hd : 0 < d) {r : ℕ} (hr : roundedQuotient n d = r) :
    2 * (d * r) ≤ 2 * n + d ∧ 2 * n ≤ 2 * (d * r) + d ∧
      (2 * (d * r) = 2 * n + d ∨ 2 * n = 2 * (d * r) + d → r % 2 = 0) := by
  have hsplit := Nat.div_add_mod n d
  have hrest := Nat.mod_lt n hd
  unfold roundedQuotient at hr
  dsimp only at hr
  generalize n / d = q at hr hsplit
  generalize n % d = rest at hr hsplit hrest
  have hnext : d * (q + 1) = d * q + d := Nat.mul_succ d q
  split at hr
  · subst hr
    omega
  · split at hr
    · subst hr
      rw [hnext]
      omega
    · rcases Nat.mod_two_eq_zero_or_one q with heven | hodd
      · rw [heven, Nat.add_zero] at hr
        subst hr
        omega
      · rw [hodd] at hr
        subst hr
        rw [hnext]
        omega

/-- A quotient is rounded to less than an even number exactly if it is more than a half below. -/
theorem roundedQuotient_lt_iff {n d k : ℕ} (hd : 0 < d) :
    roundedQuotient n d < 2 * k ↔ 2 * n + d < 2 * (d * (2 * k)) := by
  generalize hr : roundedQuotient n d = r
  obtain ⟨hlow, hhigh, heven⟩ := roundedQuotient_near hd hr
  constructor
  · intro hless
    have hnext : d * r + d ≤ d * (2 * k) := Nat.mul_le_mul_left d hless
    refine lt_of_le_of_ne (by omega) ?_
    -- What is halfway goes to the even number, and the one before is odd.
    intro htie
    have hodd : r + 1 = 2 * k := Nat.eq_of_mul_eq_mul_left hd (by rw [Nat.mul_succ]; omega)
    have hr2 := heven (Or.inr (by omega))
    omega
  · intro hless
    by_contra hnot
    have hmore : d * (2 * k) ≤ d * r := Nat.mul_le_mul_left d (not_lt.mp hnot)
    omega

theorem roundedQuotient_mono {n d n' d' : ℕ} (hd : 0 < d) (hd' : 0 < d')
    (h : n * d' ≤ n' * d) : roundedQuotient n d ≤ roundedQuotient n' d' := by
  generalize hr : roundedQuotient n d = r
  generalize hr' : roundedQuotient n' d' = r'
  obtain ⟨hlow, -, heven⟩ := roundedQuotient_near hd hr
  obtain ⟨-, hhigh, heven'⟩ := roundedQuotient_near hd' hr'
  by_contra hnot
  -- Both are as near to `r'` as to the next number, which is `r`; so both `r` and `r'` are even.
  have hscaled : 2 * (d * d' * r) ≤ 2 * (n * d') + d * d' := by
    calc 2 * (d * d' * r) = d' * (2 * (d * r)) := by ring
      _ ≤ d' * (2 * n + d) := Nat.mul_le_mul_left d' hlow
      _ = 2 * (n * d') + d * d' := by ring
  have hscaled' : 2 * (n' * d) ≤ 2 * (d * d' * r') + d * d' := by
    calc 2 * (n' * d) = d * (2 * n') := by ring
      _ ≤ d * (2 * (d' * r') + d') := Nat.mul_le_mul_left d hhigh
      _ = 2 * (d * d' * r') + d * d' := by ring
  have hless : d * d' * (r' + 1) ≤ d * d' * r := Nat.mul_le_mul_left _ (by omega)
  rw [Nat.mul_succ] at hless
  have hnext : d * d' * r = d * d' * (r' + 1) := by rw [Nat.mul_succ]; omega
  have htie : d' * (2 * (d * r)) = d' * (2 * n + d) := by
    calc d' * (2 * (d * r)) = 2 * (d * d' * r) := by ring
      _ = 2 * (n * d') + d * d' := by omega
      _ = d' * (2 * n + d) := by ring
  have htie' : d * (2 * n') = d * (2 * (d' * r') + d') := by
    calc d * (2 * n') = 2 * (n' * d) := by ring
      _ = 2 * (d * d' * r') + d * d' := by omega
      _ = d * (2 * (d' * r') + d') := by ring
  have heq := Nat.eq_of_mul_eq_mul_left (Nat.mul_pos hd hd') hnext
  have hr2 := heven (Or.inl (Nat.eq_of_mul_eq_mul_left hd' htie))
  have hr2' := heven' (Or.inr (Nat.eq_of_mul_eq_mul_left hd htie'))
  omega

namespace Binary64

variable {negative : Bool} {num den m : ℕ} {e : ℤ}

/-! ## Values in units -/

theorem natAbs_units (canonical : Canonical m e) :
    (units (.finite negative m e canonical)).natAbs = m * twoTo (e + 1074).toNat := by
  cases negative <;> simp only [units, if_true, if_false, Bool.false_eq_true, Int.natAbs_neg,
    Int.natAbs_natCast]

theorem units_of_isNegative {x : Binary64} (hx : x.isFinite = true) :
    x.units = if x.isNegative then -(x.units.natAbs : ℤ) else x.units.natAbs := by
  cases x with
  | finite negative m e canonical =>
      rw [natAbs_units]
      rfl
  | _ => cases hx

theorem twoTo_exponent (he : -1074 ≤ e) : (2 : ℚ) ^ e * unit = twoTo (e + 1074).toNat := by
  rw [unit, cast_twoTo, cast_twoTo, ← zpow_natCast, ← zpow_natCast, Int.toNat_of_nonneg (by omega),
    ← zpow_add₀ (by norm_num)]
  rfl

theorem unit_pos : 0 < unit := twoTo_pos 1074

/-- The least power of two that is too large for a finite number, in units. -/
def limit : ℕ := twoTo 1024 * unit

theorem limit_pos : 0 < limit := Nat.mul_pos (twoTo_pos _) unit_pos

/-! ## Rounding what is exact -/

theorem ofRatio_exact (hden : 0 < den) (canonical : Canonical m e)
    (h : num * unit = m * twoTo (e + 1074).toNat * den) :
    ofRatio negative num den = .finite negative m e canonical := by
  rcases Nat.eq_zero_or_pos m with rfl | hm
  · rw [Nat.zero_mul, Nat.zero_mul] at h
    obtain rfl : num = 0 := (Nat.mul_eq_zero.mp h).resolve_right (twoTo_pos _).ne'
    obtain rfl : e = -1074 := canonical.2.2.2.resolve_right (Nat.not_le.mpr (twoTo_pos 52))
    rw [ofRatio, if_pos rfl, zero, ofParts_eq]
  · have hpos : (0 : ℚ) < den := by exact_mod_cast hden
    have hunit : (0 : ℚ) < unit := by exact_mod_cast unit_pos
    have hstep : (0 : ℚ) < 2 ^ e := by positivity
    have hquotient : (num : ℚ) / den = m * 2 ^ e := by
      have hcast := congrArg (Nat.cast (R := ℚ)) h
      rw [Nat.cast_mul, Nat.cast_mul, Nat.cast_mul, ← twoTo_exponent canonical.2.1] at hcast
      rw [div_eq_iff hpos.ne']
      exact mul_right_cancel₀ hunit.ne' (hcast.trans (by ring))
    refine ofRatio_eq_finite hden hm canonical ?_ ?_ fun _ => ?_ <;> rw [hquotient] <;>
      exact mul_lt_mul_of_pos_right (by linarith) hstep

theorem ofParts_of_large (he : 971 < e) : ofParts negative m e = .infinite negative :=
  dif_neg fun canonical => absurd canonical.2.2.1 (by omega)

theorem ofRatio_of_large (hden : 0 < den) (h : twoTo 1024 * den ≤ num) :
    ofRatio negative num den = .infinite negative := by
  have hnum : 0 < num := Nat.lt_of_lt_of_le (Nat.mul_pos (twoTo_pos _) hden) h
  have hlarge : (2 : ℚ) ^ (1024 : ℤ) ≤ num / den := by
    rw [le_div_iff₀ (by exact_mod_cast hden)]
    have hcast := (Nat.cast_le (α := ℚ)).mpr h
    rw [Nat.cast_mul, cast_twoTo, ← zpow_natCast] at hcast
    exact hcast
  have hlog := lt_of_zpow_le_of_lt_zpow hlarge (log2Ratio_spec hnum hden).2
  unfold ofRatio
  rw [if_neg hnum.ne']
  dsimp only
  split
  · exact ofParts_of_large (by omega)
  · exact ofParts_of_large (by omega)

/-- What is no larger than a quotient that is rounded to a finite number is rounded to one. -/
theorem isFinite_ofRatio_of_le {num' den' : ℕ} {negative' : Bool} (hden : 0 < den)
    (hden' : 0 < den') (h : num * den' ≤ num' * den)
    (hfinite : (ofRatio negative' num' den').isFinite = true) :
    (ofRatio negative num den).isFinite = true := by
  have hpos : (0 : ℚ) < den := by exact_mod_cast hden
  have hpos' : (0 : ℚ) < den' := by exact_mod_cast hden'
  have hle : (num : ℚ) / den ≤ num' / den' := by
    rw [div_le_div_iff₀ hpos hpos']
    exact_mod_cast h
  have hbelow : (num' : ℚ) / den' < 2 ^ (1024 : ℤ) := by
    by_contra hnot
    rw [not_lt, le_div_iff₀ hpos', zpow_ofNat, ← cast_twoTo] at hnot
    rw [ofRatio_of_large hden' (by exact_mod_cast hnot)] at hfinite
    cases hfinite
  rcases lt_or_ge ((num : ℚ) / den) (2 ^ (1023 : ℤ)) with hsmall | hlast
  · exact isFinite_ofRatio hden hsmall negative
  · -- Both have the largest exponent, and the mantissas are in the same order.
    have hnum : 0 < num := by
      refine Nat.pos_of_ne_zero ?_
      rintro rfl
      rw [Nat.cast_zero, zero_div] at hlast
      exact absurd hlast (not_le.mpr (by positivity))
    have hnum' : 0 < num' := Nat.pos_of_lt_mul_right (Nat.lt_of_lt_of_le (Nat.mul_pos hnum hden') h)
    have hlog := log2Ratio_eq hnum hden hlast (hle.trans_lt hbelow)
    have hlog' := log2Ratio_eq hnum' hden' (hlast.trans hle) hbelow
    have hexponent : max (log2Ratio num den - 52) (-1074) = 971 := by rw [hlog]; rfl
    have hexponent' : max (log2Ratio num' den' - 52) (-1074) = 971 := by rw [hlog']; rfl
    obtain ⟨hmantissa, hfull⟩ := mantissa_bounds hnum hden hexponent
    have hmono : roundedQuotient (scaledDown num den 971).1 (scaledDown num den 971).2 ≤
        roundedQuotient (scaledDown num' den' 971).1 (scaledDown num' den' 971).2 := by
      refine roundedQuotient_mono (scaledDown_pos hden _ _) (scaledDown_pos hden' _ _) ?_
      show num * (den' * twoTo 971) ≤ num' * (den * twoTo 971)
      rw [← Nat.mul_assoc, ← Nat.mul_assoc]
      exact Nat.mul_le_mul_right _ h
    simp only [ofRatio, hnum'.ne', if_false, hexponent'] at hfinite
    split at hfinite
    · rw [ofParts_of_large (by omega)] at hfinite
      cases hfinite
    · rename_i hcarry
      have hless := lt_of_le_of_ne (mantissa_bounds hnum' hden' hexponent').1 hcarry
      have hbound := Nat.lt_of_le_of_lt hmono hless
      simp only [ofRatio, hnum.ne', if_false, hexponent]
      rw [if_neg hbound.ne]
      exact isFinite_ofParts ⟨hbound, by omega, le_rfl, hfull⟩

/-- A finite number times a power of two is finite or too large. -/
theorem exists_canonical_mul (canonical : Canonical m e) (j : ℕ) :
    (∃ m' e', Canonical m' e' ∧
      m' * twoTo (e' + 1074).toNat = m * twoTo (e + 1074).toNat * twoTo j) ∨
    limit ≤ m * twoTo (e + 1074).toNat * twoTo j := by
  induction j with
  | zero => exact Or.inl ⟨m, e, canonical, (Nat.mul_one _).symm⟩
  | succ j ih =>
      rw [twoTo_add, ← Nat.mul_assoc]
      rcases ih with ⟨m', e', ⟨hm', hlow, hhigh, hfull⟩, heq⟩ | hlarge
      · rw [← heq, Nat.mul_assoc, ← twoTo_add]
        by_cases hmantissa : twoTo 52 ≤ m'
        · have hexponent : (e' + 1074).toNat + 1 = (e' + 1 + 1074).toNat := by omega
          rw [hexponent]
          rcases Int.le_iff_lt_or_eq.mp hhigh with hless | rfl
          · exact Or.inl ⟨m', e' + 1, ⟨hm', by omega, by omega, Or.inr hmantissa⟩, rfl⟩
          · refine Or.inr ?_
            calc limit = twoTo 52 * twoTo 2046 := by
                  rw [limit, unit, ← twoTo_add, ← twoTo_add]
              _ ≤ m' * twoTo 2046 := Nat.mul_le_mul_right _ hmantissa
        · obtain rfl : e' = -1074 := hfull.resolve_right hmantissa
          have hdouble : 2 * m' < twoTo 53 := by
            have hpower : twoTo 53 = 2 * twoTo 52 := rfl
            omega
          refine Or.inl ⟨2 * m', -1074, ⟨hdouble, le_rfl, by omega, Or.inl rfl⟩, ?_⟩
          rw [twoTo_add, Nat.mul_comm 2 m', Nat.mul_assoc, Nat.mul_comm (twoTo _) (twoTo 1)]
          rfl
      · exact Or.inr (hlarge.trans (Nat.le_mul_of_pos_right _ (twoTo_pos 1)))

theorem canonical_twoTo {j : ℕ} (hj : j ≤ 1023) : Canonical (twoTo 52) (j - 52) :=
  ⟨twoTo_lt_twoTo (by decide), by omega, by omega, Or.inr le_rfl⟩

theorem ofInt_twoTo {j : ℕ} (hj : j ≤ 1023) :
    ofInt (twoTo j) = .finite false (twoTo 52) (j - 52) (canonical_twoTo hj) := by
  rw [ofInt, decide_eq_false (Int.not_lt.mpr (Int.natCast_nonneg _)), Int.natAbs_natCast]
  refine ofRatio_exact Nat.one_pos (canonical_twoTo hj) ?_
  rw [unit, ← twoTo_add, ← twoTo_add, Nat.mul_one]
  congr 1
  omega

theorem natAbs_units_twoTo {j : ℕ} (hj : j ≤ 1023) :
    (units (.finite false (twoTo 52) (j - 52) (canonical_twoTo hj))).natAbs = twoTo j * unit := by
  rw [natAbs_units, unit, ← twoTo_add, ← twoTo_add]
  congr 1
  omega

/-- A product with a power of two is exact, unless it is too large. -/
theorem mul_ofInt_twoTo {x : Binary64} (hx : x.isFinite = true) {j : ℕ} (hj : j ≤ 1023) :
    ((x.mul (ofInt (twoTo j))).isFinite = true ∧
      (x.mul (ofInt (twoTo j))).units = x.units * twoTo j) ∨
    (x.mul (ofInt (twoTo j)) = .infinite x.isNegative ∧
      limit ≤ x.units.natAbs * twoTo j) := by
  cases x with
  | finite negative m e canonical =>
      rw [ofInt_twoTo hj, mul, natAbs_units_twoTo hj, natAbs_units, Bool.bne_false]
      rcases exists_canonical_mul canonical j with ⟨m', e', canonical', heq⟩ | hlarge
      · have hexact : m * twoTo (e + 1074).toNat * (twoTo j * unit) * unit =
            m' * twoTo (e' + 1074).toNat * (unit * unit) := by
          rw [heq]
          ring
        refine Or.inl ?_
        rw [ofRatio_exact (Nat.mul_pos unit_pos unit_pos) canonical' hexact]
        refine ⟨rfl, ?_⟩
        simp only [units, heq]
        cases negative <;> simp
      · refine Or.inr ⟨ofRatio_of_large (Nat.mul_pos unit_pos unit_pos) ?_, hlarge⟩
        calc twoTo 1024 * (unit * unit) = limit * unit := by rw [limit, Nat.mul_assoc]
          _ ≤ m * twoTo (e + 1074).toNat * twoTo j * unit := Nat.mul_le_mul_right _ hlarge
          _ = m * twoTo (e + 1074).toNat * (twoTo j * unit) := Nat.mul_assoc _ _ _
  | _ => cases hx

end Binary64

namespace Number

/-! ## Values of numbers -/

/-- The value in units of the smallest finite number; none for what is not finite. -/
def units? : Number → Option ℤ
  | .real x => if x.isFinite then some x.units else none
  | .whole n => some (n * Binary64.unit)
  | .flag b => some (ofFlag b * Binary64.unit)

theorem units?_zero : units? (.whole 0) = some 0 := congrArg some (Int.zero_mul _)

theorem compare_mul_unit (m n : ℤ) :
    compare (m * Binary64.unit) (n * Binary64.unit) = compare m n := by
  have hmono : StrictMono fun k : ℤ => k * Binary64.unit :=
    fun _ _ h => Int.mul_lt_mul_of_pos_right h (Int.natCast_pos.mpr Binary64.unit_pos)
  rw [← cmp_eq_compare, ← cmp_eq_compare]
  exact hmono.cmp_map_eq m n

theorem compareInt?_of_isFinite {x : Binary64} (hx : x.isFinite = true) (n : ℤ) :
    x.compareInt? n = some (compare x.units (n * Binary64.unit)) := by
  cases x with
  | finite negative m e canonical => rfl
  | _ => cases hx

theorem real_of_units? {x : Binary64} {u : ℤ} (h : units? (.real x) = some u) :
    x.isFinite = true ∧ x.units = u := by
  simpa only [units?, Option.ite_none_right_eq_some, Option.some.injEq] using h

variable {a b : Number} {u v : ℤ}

theorem compare?_of_units (ha : a.units? = some u) (hb : b.units? = some v) :
    compare? a b = some (compare u v) := by
  -- An integer is compared to a binary number the other way round.
  have hswap : ∀ m n : ℤ, (compare m n).swap = compare n m := fun m n => by
    rw [← cmp_eq_compare, ← cmp_eq_compare, cmp_swap]
  cases a with
  | real x =>
      obtain ⟨hx, rfl⟩ := real_of_units? ha
      cases b with
      | real y =>
          obtain ⟨hy, rfl⟩ := real_of_units? hb
          cases x with
          | finite negative m e canonical =>
              cases y with
              | finite negative' m' e' canonical' => rfl
              | _ => cases hy
          | _ => cases hx
      | whole n =>
          cases hb
          exact compareInt?_of_isFinite hx n
      | flag f =>
          cases hb
          exact compareInt?_of_isFinite hx (ofFlag f)
  | _ =>
      cases ha
      cases b with
      | real y =>
          obtain ⟨hy, rfl⟩ := real_of_units? hb
          simp only [compare?, compareInt?_of_isFinite hy, Option.map_some, hswap]
      | _ =>
          cases hb
          exact congrArg some (compare_mul_unit _ _).symm

theorem lt_iff_of_units (ha : a.units? = some u) (hb : b.units? = some v) :
    a.lt b = true ↔ u < v := by
  rw [lt, compare?_of_units ha hb, ← Int.compare_eq_lt]
  simp

theorem le_iff_of_units (ha : a.units? = some u) (hb : b.units? = some v) :
    a.le b = true ↔ u ≤ v := by
  have hgt : compare u v = .gt ↔ v < u := Int.compare_eq_gt
  rw [le, compare?_of_units ha hb, ← Int.not_lt, ← hgt]
  cases compare u v <;> decide

/-- An infinite number is on one side of all that have a value. -/
theorem infinite_lt {negative : Bool} (ha : a.units? = some u) :
    lt (.real (.infinite negative)) a = negative := by
  cases a with
  | real x =>
      obtain ⟨hx, -⟩ := real_of_units? ha
      cases x with
      | finite => cases negative <;> rfl
      | _ => cases hx
  | _ => cases negative <;> rfl

theorem toBinary_twoTo {j : ℕ} (hj : j ≤ 1023) :
    toBinary (.whole (twoTo j)) = .ok (Binary64.ofInt (twoTo j)) := by
  have hint : Binary64.ofInt? (twoTo j) = some (Binary64.ofInt (twoTo j)) := by
    rw [Binary64.ofInt?]
    exact if_pos (by rw [Binary64.ofInt_twoTo hj]; rfl)
  rw [toBinary, hint]

/-- A product with a power of two is exact, unless it is too large. -/
theorem exists_mul_twoTo (ha : a.units? = some u) {j : ℕ} (hj : j ≤ 1023) :
    ∃ p, a.mul (.whole (twoTo j)) = .ok p ∧
      (p.units? = some (u * twoTo j) ∨
        p = .real (.infinite false) ∧ Binary64.limit ≤ u * twoTo j ∨
        p = .real (.infinite true) ∧ u * twoTo j ≤ -Binary64.limit) := by
  cases a with
  | real x =>
      obtain ⟨hx, rfl⟩ := real_of_units? ha
      have hmul : mul (.real x) (.whole (twoTo j)) = .ok (.real (x.mul (.ofInt (twoTo j)))) := by
        simp only [mul, whole?, toBinary_twoTo hj]
        rfl
      refine ⟨_, hmul, ?_⟩
      rcases Binary64.mul_ofInt_twoTo hx hj with ⟨hfinite, hunits⟩ | ⟨hinf, hlarge⟩
      · left
        rw [units?, if_pos hfinite, hunits]
      -- Too large a product is infinite, with the sign of the number.
      · right
        rw [hinf, Binary64.units_of_isNegative hx]
        have hlarge' : (Binary64.limit : ℤ) ≤ x.units.natAbs * twoTo j := by
          exact_mod_cast hlarge
        cases x.isNegative with
        | false => exact Or.inl ⟨rfl, hlarge'⟩
        | true =>
            refine Or.inr ⟨rfl, ?_⟩
            rw [if_pos rfl, Int.neg_mul]
            exact Int.neg_le_neg hlarge'
  | _ =>
      cases ha
      refine ⟨_, rfl, Or.inl ?_⟩
      rw [units?, Int.mul_right_comm]

/-! ## Numbers near binary ones -/

/-- A number of `u` units. One above 0 is not too large for a binary number. -/
structure Measures (a : Number) (u : ℤ) : Prop where
  units : a.units? = some u
  binary : 0 < u → ∃ x, a.toBinary = .ok x

theorem measures_whole {n : ℤ} (h : n.natAbs < twoTo 1023) :
    (whole n).Measures (n * Binary64.unit) :=
  ⟨rfl, fun _ => exists_toBinary h⟩

/-- A number above 0 is a quotient that is rounded to a finite number. -/
theorem Measures.exists_ratio (h : a.Measures u) (hu : 0 < u) :
    ∃ (negative : Bool) (num den : ℕ), 0 < den ∧ u * den = (num * Binary64.unit : ℕ) ∧
      (Binary64.ofRatio negative num den).isFinite = true := by
  obtain ⟨hunits, hbinary⟩ := h
  obtain ⟨y, hy⟩ := hbinary hu
  have hunit : (0 : ℤ) < Binary64.unit := Int.natCast_pos.mpr Binary64.unit_pos
  cases a with
  | real x =>
      obtain ⟨hx, rfl⟩ := real_of_units? hunits
      cases x with
      | finite negative m e canonical =>
          refine ⟨negative, m * twoTo (e + 1074).toNat, Binary64.unit, Binary64.unit_pos, ?_, ?_⟩
          · rw [← @Binary64.natAbs_units negative m e canonical, Nat.cast_mul,
              Int.natAbs_of_nonneg hu.le]
          · rw [Binary64.ofRatio_exact Binary64.unit_pos canonical rfl]
            rfl
      | _ => cases hx
  -- A whole number is a quotient by one; that it has a binary number says that it is not too large.
  | whole n =>
      cases hunits
      have hn : 0 < n := Int.pos_of_mul_pos_left hu hunit
      refine ⟨n < 0, n.natAbs, 1, Nat.one_pos, ?_, ?_⟩
      · rw [Nat.cast_mul, Int.natAbs_of_nonneg hn.le, Int.natCast_one, Int.mul_one]
      · rw [toBinary] at hy
        cases hint : Binary64.ofInt? n with
        | none =>
            rw [hint] at hy
            cases hy
        | some x =>
            simp only [Binary64.ofInt?, Option.ite_none_right_eq_some] at hint
            exact hint.1
  | flag f =>
      cases hunits
      obtain rfl : f = true := by
        cases f with
        | true => rfl
        | false =>
            rw [show ofFlag false = 0 from rfl, Int.zero_mul] at hu
            exact absurd hu (Int.lt_irrefl 0)
      have hflag : ofFlag true * (Binary64.unit : ℤ) * (1 : ℕ) = (1 * Binary64.unit : ℕ) := by
        rw [show ofFlag true = 1 from rfl, Int.one_mul, Nat.one_mul, Int.natCast_one, Int.mul_one]
      refine ⟨false, 1, 1, Nat.one_pos, hflag, ?_⟩
      have hone : 1 < twoTo 1023 := twoTo_lt_twoTo (by decide : 0 < 1023)
      exact Binary64.isFinite_ofRatio Nat.one_pos (Binary64.div_lt_zpow Nat.one_pos hone) false

/-- Numbers near binary ones are below the largest power of two. -/
theorem Measures.lt_limit (h : a.Measures u) : u < Binary64.limit := by
  by_contra hnot
  have hpos : 0 < u := lt_of_lt_of_le (Int.natCast_pos.mpr Binary64.limit_pos) (not_lt.mp hnot)
  obtain ⟨negative, num, den, hden, hratio, hfinite⟩ := h.exists_ratio hpos
  have hlarge : (Binary64.limit * den : ℕ) ≤ (num * Binary64.unit : ℕ) := by
    have hle := Int.mul_le_mul_of_nonneg_right (not_lt.mp hnot) (Int.natCast_nonneg den)
    rw [hratio] at hle
    exact_mod_cast hle
  rw [Binary64.limit, Nat.mul_right_comm] at hlarge
  rw [Binary64.ofRatio_of_large hden (Nat.le_of_mul_le_mul_right hlarge Binary64.unit_pos)]
    at hfinite
  cases hfinite

/-- What is less than a number near a binary one is near one, too. -/
theorem Measures.of_lt (hb : b.Measures v) (ha : a.units? = some u) (h : u < v) :
    a.Measures u := by
  refine ⟨ha, fun hu => ?_⟩
  cases a with
  | real x => exact ⟨x, rfl⟩
  | flag f => exact ⟨_, rfl⟩
  | whole n =>
      cases ha
      have hunit : (0 : ℤ) < Binary64.unit := Int.natCast_pos.mpr Binary64.unit_pos
      have hn : 0 < n := Int.pos_of_mul_pos_left hu hunit
      obtain ⟨negative, num, den, hden, hratio, hfinite⟩ := hb.exists_ratio (hu.trans h)
      have hscaled : n.natAbs * den * Binary64.unit ≤ num * 1 * Binary64.unit := by
        zify
        rw [abs_of_pos hn, Int.mul_one, Int.mul_right_comm]
        calc n * Binary64.unit * den ≤ v * den :=
              Int.mul_le_mul_of_nonneg_right h.le (Int.natCast_nonneg den)
          _ = num * Binary64.unit := by rw [hratio, Nat.cast_mul]
      have hle := Nat.le_of_mul_le_mul_right hscaled Binary64.unit_pos
      have hwhole : (Binary64.ofInt n).isFinite = true :=
        Binary64.isFinite_ofRatio_of_le Nat.one_pos hden hle hfinite
      rw [toBinary, Binary64.ofInt?, if_pos hwhole]
      exact ⟨_, rfl⟩

end Number

end CardImport
