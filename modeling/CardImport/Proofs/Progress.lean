import CardImport.Job.Progress

/-!
# Progress is not negative while a job runs

Rounding keeps the sign, so the fraction of a job that has copied no negative number of bytes is not
below zero: a progress that is negative says that no job runs, and one that is not says that one
does.
-/

namespace CardImport

namespace Binary64

@[simp] theorem isNegative_ofParts (negative : Bool) (m : Nat) (e : Int) :
    (ofParts negative m e).isNegative = negative := by
  unfold ofParts
  split <;> rfl

@[simp] theorem isNegative_zero (negative : Bool) : (zero negative).isNegative = negative :=
  isNegative_ofParts negative 0 (-1074)

/-- Rounding keeps the sign. -/
@[simp] theorem isNegative_ofRatio (negative : Bool) (num den : Nat) :
    (ofRatio negative num den).isNegative = negative := by
  unfold ofRatio
  split
  · exact isNegative_zero negative
  · simp only
    split <;> exact isNegative_ofParts negative _ _

/-- A number without a sign is not below zero. -/
theorem compareInt?_zero_ne_lt {x : Binary64} (hx : x.isNegative = false) :
    x.compareInt? 0 ≠ some .lt := by
  unfold compareInt?
  rw [Int.zero_mul]
  cases x with
  | nan => exact nofun
  | infinite negative =>
      obtain rfl : negative = false := hx
      exact nofun
  | finite negative m e hcanonical =>
      obtain rfl : negative = false := hx
      intro hlt
      have hneg : units (.finite false m e hcanonical) < 0 :=
        Int.compare_eq_lt.mp (Option.some.inj hlt)
      exact absurd hneg (Int.not_lt.mpr (Int.natCast_nonneg _))

theorem isNaN_of_isFinite {x : Binary64} (hx : x.isFinite = true) : x.isNaN = false := by
  cases x with
  | nan => cases hx
  | infinite negative => rfl
  | finite negative m e hcanonical => rfl

/-- A number without a sign that is no NaN is zero or above. -/
theorem zero_le_real {x : Binary64} (hx : x.isNegative = false) (hnan : x.isNaN = false) :
    Number.le (.whole 0) (.real x) = true := by
  have hlt := compareInt?_zero_ne_lt hx
  simp only [Number.le, Number.compare?]
  cases hcompare : x.compareInt? 0 with
  | none =>
      cases x with
      | nan => cases hnan
      | infinite negative => cases hcompare
      | finite negative m e hcanonical => cases hcompare
  | some order =>
      cases order with
      | lt => exact absurd hcompare hlt
      | eq => rfl
      | gt => rfl

theorem isFinite_ofQuotient? {n : Int} {d : Nat} {x : Binary64}
    (hx : ofQuotient? n d = some x) : x.isFinite = true := by
  simp only [ofQuotient?, Option.ite_none_right_eq_some, Option.some.injEq] at hx
  rw [← hx.2]
  exact hx.1

theorem isNegative_ofQuotient? {n : Int} (hn : 0 ≤ n) {d : Nat} {x : Binary64}
    (hx : ofQuotient? n d = some x) : x.isNegative = false := by
  simp only [ofQuotient?, Option.ite_none_right_eq_some, Option.some.injEq] at hx
  rw [← hx.2, isNegative_ofRatio]
  exact decide_eq_false (Int.not_lt.mpr hn)

end Binary64

namespace Progress

theorem ofStatus_of_idle {status : JobStatus} (h : status.active = false) :
    ofStatus status = .ok inactive := by
  simp [ofStatus, fraction, h]
  rfl

/-- The progress of a job that runs is a binary number, without a sign unless the bytes copied have
one. -/
theorem ofStatus_of_active {status : JobStatus} (hactive : status.active = true)
    (hcopied : 0 ≤ status.bytesCopied) {p : Number} (hp : ofStatus status = .ok p) :
    ∃ x : Binary64, p = .real x ∧ x.isNegative = false ∧ x.isNaN = false := by
  unfold ofStatus fraction at hp
  simp only [hactive, Bool.not_true, Bool.false_eq_true, if_false] at hp
  split at hp
  · cases hp
    exact ⟨_, rfl, Binary64.isNegative_zero false, rfl⟩
  · simp only [Number.div, Number.whole?, Number.divNat] at hp
    cases hx : Binary64.ofQuotient? status.bytesCopied status.bytesTotal.toNat with
    | none =>
        rw [hx] at hp
        cases hp
    | some x =>
        rw [hx] at hp
        cases hp
        exact ⟨x, rfl, Binary64.isNegative_ofQuotient? hcopied hx,
          Binary64.isNaN_of_isFinite (Binary64.isFinite_ofQuotient? hx)⟩

/-- A progress below zero says that no job runs, unless a negative number of bytes was copied. -/
theorem not_active_of_lt_zero {status : JobStatus} (hcopied : 0 ≤ status.bytesCopied) {p : Number}
    (hp : ofStatus status = .ok p) (hlt : p.lt (.whole 0) = true) : status.active = false := by
  cases hactive : status.active with
  | false => rfl
  | true =>
      obtain ⟨x, rfl, hx, -⟩ := ofStatus_of_active hactive hcopied hp
      exact absurd (beq_iff_eq.mp hlt) (Binary64.compareInt?_zero_ne_lt hx)

/-- The progress of a job that runs says so, unless a negative number of bytes was copied. -/
theorem isActive_of_active {status : JobStatus} (hactive : status.active = true)
    (hcopied : 0 ≤ status.bytesCopied) {p : Number} (hp : ofStatus status = .ok p) :
    isActive p = true := by
  obtain ⟨x, rfl, hx, hnan⟩ := ofStatus_of_active hactive hcopied hp
  exact Binary64.zero_le_real hx hnan

end Progress

end CardImport
