import CardImport.Proofs.Number.Range
import CardImport.Proofs.Progress
import CardImport.Proofs.Session.Look

/-!
# Progress and activity

One number tells how far a job is and whether there is one: below zero there is none. The number is
an exact fraction, rounded once. The byte counts are whatever the server sends, and the fraction
leaves the range between 0 and 1 as soon as they do not lie between 0 and the total.
-/

namespace CardImport

/-! ## Rounding a fraction -/

namespace Binary64

/-- The nearest number to a fraction; none where it is too large. -/
def nearest? (q : ℚ) : Option Binary64 := ofQuotient? q.num q.den

/-- It does not matter whether a quotient is reduced before it is rounded. -/
theorem nearest?_div (n : ℤ) {d : ℕ} (hd : 0 < d) : nearest? (n / d) = ofQuotient? n d := by
  have hpos : (0 : ℚ) < d := by exact_mod_cast hd
  generalize hq : (n : ℚ) / d = q
  have hcross : q.num * d = n * q.den := by
    have hreduced : (q.num : ℚ) / q.den = n / d := (Rat.num_div_den q).trans hq.symm
    rw [div_eq_div_iff (by exact_mod_cast q.den_ne_zero) hpos.ne'] at hreduced
    exact_mod_cast hreduced
  have hsign : q.num < 0 ↔ n < 0 := by
    rw [Rat.num_neg, ← hq, div_lt_iff₀ hpos, zero_mul, Int.cast_lt_zero]
  have hsize : q.num.natAbs * d = n.natAbs * q.den := by
    simpa [Int.natAbs_mul] using congrArg Int.natAbs hcross
  simp only [nearest?, ofQuotient?, hsign, ofRatio_congr q.den_pos hd hsize]

/-- A fraction between 0 and 1 is not too large, and is not rounded to a number with a sign. -/
theorem exists_nearest? {q : ℚ} (hq : 0 ≤ q) (hone : q ≤ 1) :
    ∃ x, nearest? q = some x ∧ x.isNegative = false ∧ x.isNaN = false := by
  have hsize : (q.num.natAbs : ℚ) / q.den = q := by
    rw [Nat.cast_natAbs, abs_of_nonneg (Rat.num_nonneg.mpr hq), Rat.num_div_den]
  have hsmall : (q.num.natAbs : ℚ) / q.den < 2 ^ (1023 : ℤ) := by
    rw [hsize]
    exact hone.trans_lt (one_lt_zpow₀ (by norm_num) (by norm_num))
  have hnearest : nearest? q = some (ofRatio (q.num < 0) q.num.natAbs q.den) :=
    if_pos (isFinite_ofRatio q.den_pos hsmall _)
  exact ⟨_, hnearest, isNegative_ofQuotient? (Rat.num_nonneg.mpr hq) hnearest,
    isNaN_of_isFinite (isFinite_ofQuotient? hnearest)⟩

end Binary64

namespace Progress

/-! ## The exact progress -/

/-- The progress of a status before it is rounded. -/
def exact (status : JobStatus) : ℚ :=
  if status.active = false then -1
  else if status.bytesTotal ≤ 0 then 0
  else status.bytesCopied / status.bytesTotal

/-- A fraction as a progress, rounded. -/
def rounded (q : ℚ) : Except NumberError Number :=
  match Binary64.nearest? q with
  | some x => .ok (.real x)
  | none => .error .quotientTooLarge

/-- Whether the bytes of a job lie between none and all, once there is anything to copy. -/
def Counted (status : JobStatus) : Prop :=
  status.active = true → 0 < status.bytesTotal →
    0 ≤ status.bytesCopied ∧ status.bytesCopied ≤ status.bytesTotal

variable {status : JobStatus}

theorem exact_of_idle (h : status.active = false) : exact status = -1 := if_pos h

theorem exact_of_unsized (h : status.active = true) (htotal : status.bytesTotal ≤ 0) :
    exact status = 0 := by
  simp [exact, h, htotal]

theorem exact_of_sized (h : status.active = true) (htotal : 0 < status.bytesTotal) :
    exact status = status.bytesCopied / status.bytesTotal := by
  simp [exact, h, htotal]

/-- The progress is the exact one, rounded once. -/
theorem ofStatus_eq_rounded (status : JobStatus) : ofStatus status = rounded (exact status) := by
  cases hactive : status.active with
  | false =>
      rw [ofStatus_of_idle hactive, exact_of_idle hactive]
      rfl
  | true =>
      unfold ofStatus fraction
      simp only [hactive, Bool.not_true, Bool.false_eq_true, if_false, Number.le_whole]
      by_cases htotal : status.bytesTotal ≤ 0
      · rw [if_pos htotal, exact_of_unsized hactive htotal]
        rfl
      · have hsized := not_le.mp htotal
        have hcast : (status.bytesTotal : ℚ) = (status.bytesTotal.toNat : ℕ) := by
          exact_mod_cast (Int.toNat_of_nonneg hsized.le).symm
        rw [if_neg htotal, exact_of_sized hactive hsized, hcast, rounded,
          Binary64.nearest?_div _ (by omega)]
        simp only [Number.div, Number.whole?, Number.divNat]
        cases Binary64.ofQuotient? status.bytesCopied status.bytesTotal.toNat <;> rfl

/-- While a job runs, its exact progress lies between 0 and 1 exactly if its bytes lie between none
and all. -/
theorem exact_within_iff (h : status.active = true) :
    0 ≤ exact status ∧ exact status ≤ 1 ↔ Counted status := by
  rcases le_or_gt status.bytesTotal 0 with htotal | htotal
  · rw [exact_of_unsized h htotal]
    refine iff_of_true ⟨le_rfl, zero_le_one⟩ ?_
    intro _ hsized
    exact absurd hsized (not_lt.mpr htotal)
  · have hpos : (0 : ℚ) < status.bytesTotal := by exact_mod_cast htotal
    rw [exact_of_sized h htotal, le_div_iff₀ hpos, zero_mul, div_le_one hpos]
    simp only [Counted, h, htotal, true_imp_iff]
    norm_cast

/-- A job of which the opposite of all bytes is copied looks as if there were none. -/
theorem exact_eq_idle_iff (h : status.active = true) :
    exact status = -1 ↔ 0 < status.bytesTotal ∧ status.bytesCopied = -status.bytesTotal := by
  rcases le_or_gt status.bytesTotal 0 with htotal | htotal
  · rw [exact_of_unsized h htotal]
    refine iff_of_false (by norm_num) ?_
    rintro ⟨hsized, -⟩
    exact absurd hsized (not_lt.mpr htotal)
  · have hpos : (0 : ℚ) < status.bytesTotal := by exact_mod_cast htotal
    rw [exact_of_sized h htotal, div_eq_iff hpos.ne', neg_one_mul, and_iff_right htotal]
    norm_cast

/-- The progress of a job whose bytes lie between none and all says that it runs. -/
theorem exists_ofStatus_of_counted (h : status.active = true) (hcounted : Counted status) :
    ∃ p, ofStatus status = .ok p ∧ isActive p = true := by
  obtain ⟨hlow, hhigh⟩ := (exact_within_iff h).mpr hcounted
  obtain ⟨x, hx, hsign, hnan⟩ := Binary64.exists_nearest? hlow hhigh
  refine ⟨.real x, ?_, Binary64.zero_le_real hsign hnan⟩
  rw [ofStatus_eq_rounded, rounded, hx]

end Progress

/-! ## The state of a session after a merge -/

theorem Session.state_eq_active_iff {s : Session} (hloaded : s.loading = false)
    (hitems : s.items ≠ []) : s.state = .active ↔ Progress.isActive s.progress = true := by
  have hempty : s.items.isEmpty = false := by simpa using hitems
  simp only [state, hloaded, hempty, Bool.false_eq_true, if_false]
  cases Progress.isActive s.progress <;> simp

/-- After a merge, the state of a session with a list depends on the progress alone. -/
theorem Session.state_merge {s : Session} {status : JobStatus} {p : Number}
    (hp : Progress.ofStatus status = .ok p) (hloaded : s.loading = false) (hitems : s.items ≠ []) :
    (s.merge status).1.state = .active ↔ Progress.isActive p = true := by
  have hbase := base_merge s status
  have hlength : (s.merge status).1.items.length = s.items.length := by
    simpa [base] using congrArg (fun b : Session => b.items.length) hbase
  have hitems' : (s.merge status).1.items ≠ [] := by
    rw [← List.length_pos_iff, hlength, List.length_pos_iff]
    exact hitems
  have hloaded' : (s.merge status).1.loading = false := (congrArg loading hbase).trans hloaded
  rw [state_eq_active_iff hloaded' hitems']
  obtain ⟨items, hmerged⟩ := merge_of_progress (s := s) hp
  rw [hmerged]
  rfl

namespace Progress

/-- Whether the progress of a status matches its activity: it is -1 exactly if no job runs, and lies
between 0 and 1 exactly if one does, before it is rounded; and every session that has a list is
active after the status was merged exactly if a job runs. -/
structure Matches (status : JobStatus) : Prop where
  idle : exact status = -1 ↔ status.active = false
  within : 0 ≤ exact status ∧ exact status ≤ 1 ↔ status.active = true
  shown : ∀ s : Session, s.loading = false → s.items ≠ [] →
    ((s.merge status).1.state = .active ↔ status.active = true)

theorem matches_of_idle {status : JobStatus} (h : status.active = false) : Matches status where
  idle := iff_of_true (exact_of_idle h) h
  within := by
    rw [exact_of_idle h, h]
    norm_num
  shown s hloaded hitems := by
    rw [Session.state_merge (ofStatus_of_idle h) hloaded hitems, h]
    decide +kernel

theorem matches_of_counted {status : JobStatus} (h : status.active = true)
    (hcounted : Counted status) : Matches status where
  idle := by
    refine iff_of_false ?_ (by simp [h])
    intro heq
    have hlow := ((exact_within_iff h).mpr hcounted).1
    rw [heq] at hlow
    norm_num at hlow
  within := iff_of_true ((exact_within_iff h).mpr hcounted) h
  shown s hloaded hitems := by
    obtain ⟨p, hp, hactive⟩ := exists_ofStatus_of_counted h hcounted
    rw [Session.state_merge hp hloaded hitems]
    exact iff_of_true hactive h

/-- The progress is an exact one, rounded once. It matches the activity of the status exactly if the
bytes of a job that runs lie between none and all, once there is anything to copy. -/
theorem matches_iff (status : JobStatus) :
    ofStatus status = rounded (exact status) ∧ (Matches status ↔ Counted status) := by
  refine ⟨ofStatus_eq_rounded status, ?_⟩
  cases h : status.active with
  | false =>
      refine iff_of_true (matches_of_idle h) ?_
      intro hactive
      cases h.symm.trans hactive
  | true =>
      constructor
      · intro hmatches
        exact (exact_within_iff h).mp (hmatches.within.mpr h)
      · exact matches_of_counted h

/-! ## Bytes that are not counted -/

def running (copied total : Int) : Json :=
  .obj [("active", .bool true), ("bytesCopied", .int copied), ("bytesTotal", .int total)]

theorem count_int (n : Int) : JobStatus.count (.int n) = .ok n := by
  by_cases hn : n = 0
  · rw [hn]
    rfl
  · simp [JobStatus.count, Json.truthy, Json.toWhole, hn]

/-- Any two whole numbers come through as the bytes of a job. -/
theorem decode_running (copied total : Int) : (JobStatus.decode (running copied total)).outcome.1 =
    .ok { active := true, bytesCopied := copied, bytesTotal := total } := by
  have hdecode : JobStatus.decode (running copied total) = (do
      let bytesCopied ← (JobStatus.count (.int copied) : Noted Int)
      let bytesTotal ← (JobStatus.count (.int total) : Noted Int)
      return { active := true, bytesCopied, bytesTotal }) := rfl
  rw [hdecode, count_int, count_int]
  rfl

/-- If the opposite of all bytes is copied, no session takes the job for one that runs; twice the
bytes are more than a fraction of them. -/
theorem not_matches_uncounted :
    (∃ status, (JobStatus.decode (running (-1) 1)).outcome.1 = .ok status ∧
      status.active = true ∧ exact status = -1 ∧ ¬ Matches status ∧
      ∀ s : Session, s.loading = false → s.items ≠ [] → (s.merge status).1.state ≠ .active) ∧
    ∃ status, (JobStatus.decode (running 2 1)).outcome.1 = .ok status ∧
      status.active = true ∧ exact status = 2 ∧ ¬ Matches status := by
  constructor
  · let status : JobStatus := { active := true, bytesCopied := -1, bytesTotal := 1 }
    have hexact : exact status = -1 := (exact_eq_idle_iff rfl).mpr ⟨by decide, rfl⟩
    have hidle : ofStatus status = .ok inactive := by
      rw [ofStatus_eq_rounded, hexact]
      rfl
    refine ⟨status, decode_running (-1) 1, rfl, hexact, ?_, ?_⟩
    · intro hmatches
      cases hmatches.idle.mp hexact
    · intro s hloaded hitems
      rw [Ne, Session.state_merge hidle hloaded hitems]
      decide +kernel
  · let status : JobStatus := { active := true, bytesCopied := 2, bytesTotal := 1 }
    have hexact : exact status = 2 := by
      rw [exact_of_sized rfl (by decide)]
      norm_num [status]
    refine ⟨status, decode_running 2 1, rfl, hexact, ?_⟩
    intro hmatches
    have hhigh := (hmatches.within.mpr rfl).2
    rw [hexact] at hhigh
    norm_num at hhigh

end Progress

end CardImport
