import CardImport.Proofs.Number.Exact
import CardImport.Retry

/-!
# Retries

Which failures are worth a second try, and how long the delay before it is: doubling is exact, and
a doubled delay that is too large for a number is longer than every cap.
-/

namespace CardImport

/-- A failure that may pass: the server could not be reached, is busy or failed by itself. -/
def Failure.IsTransient (f : Failure) : Prop :=
  f.isRemote = true ∧ f.kind ≠ .application ∧ ∃ status, f.status? = some status ∧
    (status = 0 ∨ status = 408 ∨ status = 429 ∨ 500 ≤ status ∧ status ≤ 599)

namespace Number

/-- A number is as many units as it should be; negative infinity is for what is below all finite
numbers. -/
def StandsFor (a : Number) (u : ℤ) : Prop :=
  a.Measures u ∨ a = .real (.infinite true) ∧ u ≤ -Binary64.limit

end Number

namespace Retry

theorem isTransient_iff (status : ℤ) : isTransient status = true ↔
    status = 0 ∨ status = 408 ∨ status = 429 ∨ 500 ≤ status ∧ status ≤ 599 := by
  unfold isTransient category transientStatuses
  simp only [List.contains_iff_mem, List.mem_cons, List.not_mem_nil, or_false, Bool.or_eq_true,
    Bool.and_eq_true, decide_eq_true_eq]
  split
  · simp only [true_iff]
    omega
  · split <;> simp only [reduceCtorEq, false_iff] <;> omega

theorem isRetryable_iff (f : Failure) : isRetryable f = true ↔ f.IsTransient := by
  unfold Failure.IsTransient isRetryable Failure.isRemote
  cases f with
  | remote | transport | notFound | application =>
      simp [Failure.kind, Failure.Kind.isRemote, Failure.status?, isTransient_iff]
  | setting e => cases h : e.isLookup <;> simp [Failure.kind, h, Failure.Kind.isRemote]
  | number e => cases e <;> simp [Failure.kind, Failure.Kind.isRemote]
  | _ => simp [Failure.kind, Failure.Kind.isRemote]

/-- The delay after the `k + 1`-th failure in a row. -/
theorem exists_delay_eq {base cap : Number} {u v : ℤ} (hbase : base.Measures u)
    (hcap : cap.Measures v) {k : ℕ} (hk : k ≤ 1023) :
    ∃ d, delay (k + 1 : ℕ) base cap = .ok d ∧ d.StandsFor (min v (u * 2 ^ k)) := by
  obtain ⟨p, hp, hvalue⟩ := Number.exists_mul_twoTo hbase.units hk
  have hdelay : delay (k + 1 : ℕ) base cap = .ok (if p.lt cap then p else cap) := by
    have hattempt : ¬ ((k + 1 : ℕ) : ℤ) < 1 := by omega
    have hpower : (((k + 1 : ℕ) : ℤ) - 1).toNat = k := by omega
    simp only [delay, if_neg hattempt, hpower, hp]
    rfl
  refine ⟨_, hdelay, ?_⟩
  have hcast : (twoTo k : ℤ) = 2 ^ k := by simp [twoTo]
  rw [hcast] at hvalue
  rcases hvalue with hunits | ⟨rfl, hlarge⟩ | ⟨rfl, hlow⟩
  · by_cases hless : u * 2 ^ k < v
    · rw [if_pos ((Number.lt_iff_of_units hunits hcap.units).mpr hless), min_eq_right hless.le]
      exact Or.inl (hcap.of_lt hunits hless)
    · rw [if_neg fun h => hless ((Number.lt_iff_of_units hunits hcap.units).mp h),
        min_eq_left (not_lt.mp hless)]
      exact Or.inl hcap
  · rw [Number.infinite_lt hcap.units, if_neg Bool.false_ne_true,
      min_eq_left (hcap.lt_limit.le.trans hlarge)]
    exact Or.inl hcap
  · rw [Number.infinite_lt hcap.units, if_pos rfl]
    exact Or.inr ⟨rfl, (min_le_right _ _).trans hlow⟩

end Retry

end CardImport
