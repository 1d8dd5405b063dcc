import CardImport.Proofs.Number.Places
import CardImport.Size
import Mathlib.Data.Nat.Log

/-!
# The unit of a size

A size of at least one unit is shown in the largest unit that is not larger than it, as the nearest
number of tenths. The unit is chosen by the exact quotient and the number is rounded afterwards, so
a size that is less than half a tenth below the next unit is shown as 1024.0 of the smaller one.
-/

namespace CardImport

/-- The nearest number of tenths is within half a tenth of the quotient. -/
theorem tenths_near {n d tenths : ℕ} (hd : 0 < d) (h : roundedQuotient (n * 10) d = tenths) :
    |(tenths : ℚ) / 10 - n / d| ≤ 1 / 20 := by
  have hnear := abs_roundedQuotient_sub_le (n := n * 10) hd
  have hscaled : (tenths : ℚ) / 10 - n / d = (tenths - (n * 10 : ℕ) / d) / 10 := by
    push_cast
    ring
  rw [h] at hnear
  rw [hscaled, abs_div, abs_of_pos (by norm_num : (0 : ℚ) < 10)]
  linarith

/-- A quotient of at least one and less than a whole number is rounded to no more tenths than that
number has, and to those of one at least. -/
theorem tenths_bounds {n d k tenths : ℕ} (hd : 0 < d) (h : roundedQuotient (n * 10) d = tenths)
    (hlow : d ≤ n) (hhigh : n < d * k) : 10 ≤ tenths ∧ tenths ≤ k * 10 := by
  obtain ⟨hbelow, habove, -⟩ := roundedQuotient_near hd h
  constructor
  · by_contra hless
    have hmost : d * tenths ≤ d * 9 := Nat.mul_le_mul_left d (by omega)
    omega
  · by_contra hmore
    have hleast : d * (k * 10 + 1) ≤ d * tenths := Nat.mul_le_mul_left d (by omega)
    rw [Nat.mul_succ, ← Nat.mul_assoc] at hleast
    omega

namespace Size

/-! ## What is shown -/

def written (tenths : ℕ) (unit : String) : String :=
  toString (tenths / 10) ++ "." ++ toString (tenths % 10) ++ " " ++ unit

/-- Whether tenths of one of the units come to one whole unit at least and are within half a tenth
of `n` bytes. -/
def Shows (n tenths : ℕ) (unit : String) : Prop :=
  1 ≤ (tenths : ℚ) / 10 ∧
    ∃ i, units[i]? = some unit ∧ |(tenths : ℚ) / 10 - n / step ^ (i + 1)| ≤ 1 / 20

/-- Whether a text shows `n` bytes in one of the units, by a number below the step to the next. -/
def Fits (n : ℕ) (text : String) : Prop :=
  ∃ tenths unit, text = written tenths unit ∧ Shows n tenths unit ∧ (tenths : ℚ) / 10 < step

/-- Whether a size is more than half a tenth of its unit below the next unit. -/
def Clear (n : ℕ) : Prop := (n : ℚ) / step ^ Nat.log step n < step - 1 / 20

/-- The whole units are what stands before the point. -/
theorem div_ten_of_written {tenths tenths' : ℕ} {unit unit' : String}
    (h : written tenths unit = written tenths' unit') : tenths / 10 = tenths' / 10 := by
  have hdigits : ∀ tenths unit,
      (written tenths unit).toList.takeWhile Char.isDigit = Nat.toDigits 10 (tenths / 10) := by
    intro tenths unit
    have hall : ∀ c ∈ Nat.toDigits 10 (tenths / 10), c.isDigit = true :=
      fun c hc => Nat.isDigit_of_mem_toDigits (by decide) (by decide) hc
    simp only [written, String.toList_append, Nat.toString_eq_repr, Nat.toList_repr,
      List.append_assoc]
    rw [List.takeWhile_append_of_pos hall]
    simp
  have hsame : Nat.toDigits 10 (tenths / 10) = Nat.toDigits 10 (tenths' / 10) := by
    rw [← hdigits tenths unit, h, hdigits]
  rw [← Nat.ofDigitChars_ten_toDigits (n := tenths / 10), hsame, Nat.ofDigitChars_ten_toDigits]

theorem cast_tenths_lt {tenths : ℕ} : (tenths : ℚ) / 10 < step ↔ tenths < 2 * (5 * step) := by
  rw [div_lt_iff₀ (by norm_num)]
  norm_cast

/-- A text that shows as many units as make the next one fits no size. -/
theorem not_fits_of_step_le {n tenths : ℕ} {unit : String} (h : 2 * (5 * step) ≤ tenths) :
    ¬ Fits n (written tenths unit) := by
  rintro ⟨tenths', unit', htext, -, hbelow⟩
  have hwhole := div_ten_of_written htext
  rw [cast_tenths_lt] at hbelow
  omega

/-! ## The steps from unit to unit -/

variable {n k : ℕ}

theorem step_pow (k : ℕ) : step ^ k = twoTo (10 * k) := by
  show 1024 ^ k = 2 ^ (10 * k)
  rw [pow_mul]
  rfl

/-- A size in the unit with a number, unrounded. -/
def inUnit (n k : ℕ) : Binary64 := .ofRatio false n (twoTo (10 * (k + 1)))

/-- The powers of the step that are not above a size of 53 bits are in range. -/
theorem power_le (hn : n < twoTo 53) (hlow : step ^ (k + 1) ≤ n) : 10 * (k + 1) ≤ 1074 := by
  rw [step_pow] at hlow
  have hless := (Nat.pow_lt_pow_iff_right (by decide)).mp (hlow.trans_lt hn)
  omega

theorem stepDown_inUnit (hn : n < twoTo 53) (hlow : step ^ (k + 1) ≤ n) :
    stepDown (inUnit n k) = inUnit n (k + 1) := by
  have hstep : step = twoTo 10 := by decide
  rw [stepDown, hstep, inUnit, Binary64.div?_ofRatio_twoTo hn (power_le hn hlow) (by decide),
    Option.getD_some, ← Nat.mul_succ]
  rfl

theorem compareInt?_inUnit (hn : n < twoTo 53) (hlow : step ^ (k + 1) ≤ n) :
    (inUnit n k).compareInt? step = some .lt ↔ n < step ^ (k + 2) := by
  rw [inUnit, Binary64.compareInt?_ofRatio_twoTo hn (power_le hn hlow), ← step_pow, ← pow_succ']

/-- Going up from unit to unit ends at the largest unit that is not above the size. The quotients on
the way are exact, so they are compared as the size is with the powers of the step. -/
theorem exists_inUnits (hn : n < twoTo 53) {later : List String} (hlow : step ^ (k + 1) ≤ n)
    (hhigh : n < step ^ (k + 1 + later.length)) :
    ∃ i unit, later[i]? = some unit ∧ step ^ (k + i + 1) ≤ n ∧ n < step ^ (k + i + 2) ∧
      inUnits (inUnit n k) later = (inUnit n (k + i)).fixed 1 ++ " " ++ unit := by
  induction later generalizing k with
  | nil => exact absurd hhigh (Nat.not_lt.mpr hlow)
  | cons unit later ih =>
      rw [inUnits]
      by_cases hbelow : n < step ^ (k + 2)
      · refine ⟨0, unit, rfl, hlow, hbelow, if_pos ?_⟩
        exact beq_iff_eq.mpr ((compareInt?_inUnit hn hlow).mpr hbelow)
      · have hnext : n < step ^ (k + 1 + 1 + later.length) := by
          rwa [List.length_cons, Nat.add_comm later.length, ← Nat.add_assoc] at hhigh
        obtain ⟨i, unit', hunit, hlow', hhigh', htext⟩ := ih (not_lt.mp hbelow) hnext
        rw [Nat.add_right_comm k 1 i] at hlow' hhigh' htext
        refine ⟨i + 1, unit', hunit, hlow', hhigh', ?_⟩
        rw [if_neg fun h => hbelow ((compareInt?_inUnit hn hlow).mp (beq_iff_eq.mp h)),
          stepDown_inUnit hn hlow]
        exact htext

theorem text_eq_inUnits (hn : n < twoTo 53) (hlow : step ≤ n) :
    text (.whole n) = .ok (inUnits (inUnit n 0) units) := by
  have hone : (Number.whole n).eq (.whole 1) = false := by
    rw [← Bool.not_eq_true, Number.eq_whole]
    unfold step at hlow
    omega
  have hstep : (Number.whole n).lt (.whole step) = false := by
    rw [← Bool.not_eq_true, Number.lt_whole]
    exact_mod_cast not_lt.mpr hlow
  have hdiv : Number.divNat (.whole n) step = .ok (inUnit n 0) := by
    have hquotient : Binary64.ofQuotient? n step = some (inUnit n 0) := by
      have hsmall : (n : ℤ).natAbs < twoTo 1023 := hn.trans (twoTo_lt_twoTo (by decide))
      rw [Binary64.ofQuotient?_eq (by decide) hsmall, inUnit, Int.natAbs_natCast,
        decide_eq_false (Int.not_lt.mpr (Int.natCast_nonneg n))]
      rfl
    rw [Number.divNat, hquotient]
  rw [text, hone, hstep, hdiv]
  rfl

/-- A size from one unit on is shown in its unit by the nearest number of tenths. -/
theorem exists_written (hlow : step ≤ n) (hhigh : n < step ^ 5) :
    ∃ i unit, units[i]? = some unit ∧ Nat.log step n = i + 1 ∧
      text (.whole n) = .ok (written (roundedQuotient (n * 10) (step ^ (i + 1))) unit) := by
  have hn : n < twoTo 53 := hhigh.trans (by decide)
  have hfirstUnit : step ^ (0 + 1) ≤ n := by rwa [Nat.zero_add, pow_one]
  have hlastUnit : n < step ^ (0 + 1 + units.length) := hhigh
  obtain ⟨i, unit, hunit, hfirst, hlast, htext⟩ := exists_inUnits hn hfirstUnit hlastUnit
  rw [Nat.zero_add] at hfirst hlast htext
  refine ⟨i, unit, hunit, Nat.log_eq_of_pow_le_of_lt_pow hfirst hlast, ?_⟩
  rw [text_eq_inUnits hn hlow, htext, inUnit, step_pow,
    Binary64.fixed_one_ofRatio_twoTo hn (power_le hn hfirst) rfl]
  rfl

/-- The number stays below the step exactly if the size is clear of the next unit. -/
theorem tenths_lt_iff_clear {i : ℕ} (hunit : Nat.log step n = i + 1) :
    roundedQuotient (n * 10) (step ^ (i + 1)) < 2 * (5 * step) ↔ Clear n := by
  have hpos : 0 < step ^ (i + 1) := Nat.pow_pos (by decide)
  have hcast : (0 : ℚ) < step ^ (i + 1) := by exact_mod_cast hpos
  rw [roundedQuotient_lt_iff hpos, Clear, hunit, div_lt_iff₀ hcast, ← Nat.cast_lt (α := ℚ)]
  push_cast
  constructor <;> intro h <;> linarith

/-- A size is shown in its unit, by the nearest number of tenths. This number is below the step to
the next unit exactly if the size is clear of that unit; else it comes to the step. -/
theorem fits_iff_clear {n : ℕ} (hlow : step ≤ n) (hhigh : n < step ^ 5) :
    ∃ tenths unit, text (.whole n) = .ok (written tenths unit) ∧
      units[Nat.log step n - 1]? = some unit ∧ Shows n tenths unit ∧ (tenths : ℚ) / 10 ≤ step ∧
      (Fits n (written tenths unit) ↔ Clear n) := by
  obtain ⟨i, unit, hunit, hlog, htext⟩ := exists_written hlow hhigh
  have hpos : 0 < step ^ (i + 1) := Nat.pow_pos (by decide)
  have hstepOne : 1 < step := by decide
  have hfirst : step ^ (i + 1) ≤ n := hlog ▸ Nat.pow_log_le_self step (by omega)
  have hlast : n < step ^ (i + 1) * step := hlog ▸ Nat.lt_pow_succ_log_self hstepOne n
  have hclear := tenths_lt_iff_clear hlog
  have hnear := tenths_near (n := n) hpos rfl
  obtain ⟨hone, hstep⟩ := tenths_bounds hpos rfl hfirst hlast
  generalize roundedQuotient (n * 10) (step ^ (i + 1)) = tenths at htext hclear hnear hone hstep
  have hshows : Shows n tenths unit := by
    refine ⟨?_, i, hunit, by exact_mod_cast hnear⟩
    rw [le_div_iff₀ (by norm_num)]
    exact_mod_cast hone
  refine ⟨tenths, unit, htext, by rw [hlog]; exact hunit, hshows, ?_, ?_⟩
  · rw [div_le_iff₀ (by norm_num)]
    exact_mod_cast hstep
  · rw [← hclear]
    constructor
    · intro hfits
      by_contra hmore
      exact not_fits_of_step_le (not_lt.mp hmore) hfits
    · intro hless
      exact ⟨tenths, unit, rfl, hshows, cast_tenths_lt.mpr hless⟩

/-- The largest number of bytes that is shown in KiB below 1024.0. -/
theorem fits_iff_clear_largest :
    (step ≤ 1048524 ∧ 1048524 < step ^ 5) ∧
      text (.whole 1048524) = .ok "1023.9 KiB" ∧ Fits 1048524 "1023.9 KiB" := by
  have htext : text (.whole 1048524) = .ok "1023.9 KiB" := by decide +kernel
  have hlog : Nat.log step 1048524 = 1 := by decide +kernel
  refine ⟨by decide, htext, ?_⟩
  obtain ⟨tenths, unit, hwritten, -, -, -, hfits⟩ :=
    fits_iff_clear (n := 1048524) (by decide) (by decide)
  rw [← Except.ok.inj (hwritten.symm.trans htext), hfits, Clear, hlog]
  norm_num [step]

/-- One byte below a mebibyte is shown as 1024.0 KiB, and 1.0 MiB would fit. -/
theorem not_fits_below_mebibyte :
    (step ≤ 1048575 ∧ 1048575 < step ^ 5) ∧ text (.whole 1048575) = .ok "1024.0 KiB" ∧
      ¬ Fits 1048575 "1024.0 KiB" ∧ Fits 1048575 "1.0 MiB" := by
  have hwritten : "1024.0 KiB" = written 10240 "KiB" := by decide +kernel
  refine ⟨by decide, by decide +kernel, ?_, ?_⟩
  · rw [hwritten]
    exact not_fits_of_step_le (by decide)
  · refine ⟨10, "MiB", by decide +kernel, ⟨by norm_num, 1, rfl, ?_⟩, by norm_num [step]⟩
    rw [abs_le]
    constructor <;> norm_num [step]

end Size

end CardImport
