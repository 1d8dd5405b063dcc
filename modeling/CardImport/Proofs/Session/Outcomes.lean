import CardImport.Proofs.Progress
import CardImport.Proofs.Retry
import CardImport.Proofs.Session.Look
import CardImport.Proofs.Session.Polling

/-!
# How the looks of a poll turn out

A look of a poll is told how far the job is, or it fails, and a failure may pass or not. Whether the
poll looks again and how long it waits before are functions of the outcomes so far.
-/

namespace CardImport

/-- How a look of a poll turns out. -/
inductive Outcome where
  /-- A status was merged, and a job runs. -/
  | active
  /-- A status was merged, and no job runs. -/
  | idle
  /-- The request failed in a way that may pass. -/
  | transient
  /-- The request failed for good. -/
  | permanent
deriving DecidableEq

namespace Outcome

/-- Whether a poll looks again: it was not told that no job runs, no request failed for good, and no
more than `retries` of them failed in a row. -/
def GoesOn (retries : ℕ) (outcomes : List Outcome) : Prop :=
  (∀ o ∈ outcomes, o ≠ .idle ∧ o ≠ .permanent) ∧
    ¬ List.replicate (retries + 1) .transient <:+: outcomes

instance (retries : ℕ) (outcomes : List Outcome) : Decidable (GoesOn retries outcomes) := by
  unfold GoesOn; infer_instance

/-- How many failures that may pass come last, in a row. -/
def streak (outcomes : List Outcome) : ℕ := (outcomes.reverse.takeWhile (· = .transient)).length

/-- How long a poll waits before it looks again: the interval, which is doubled with each failure in
a row after the first and then never more than the cap. -/
def pause (interval cap : ℤ) (outcomes : List Outcome) : ℤ :=
  match streak outcomes with
  | 0 => interval
  | k + 1 => min cap (interval * 2 ^ k)

variable {retries : ℕ} {outcomes : List Outcome} {o : Outcome}

/-! ## One outcome more -/

theorem streak_concat_transient (outcomes : List Outcome) :
    streak (outcomes ++ [.transient]) = streak outcomes + 1 := by
  simp [streak]

theorem streak_concat_of_ne (ho : o ≠ .transient) : streak (outcomes ++ [o]) = 0 := by
  simp [streak, ho]

theorem replicate_suffix_iff (n : ℕ) (outcomes : List Outcome) :
    List.replicate n .transient <:+ outcomes ↔ n ≤ streak outcomes := by
  induction outcomes using List.reverseRecOn generalizing n with
  | nil => simp [streak]
  | append_singleton outcomes o ih =>
      cases n with
      | zero => simp
      | succ n =>
          rw [List.replicate_succ', List.suffix_concat_iff]
          by_cases ho : o = .transient
          · subst ho
            simp [ih, streak_concat_transient]
          · simp [Ne.symm ho, streak_concat_of_ne ho]

theorem goesOn_nil (retries : ℕ) : GoesOn retries [] := by
  simp [GoesOn]

/-- Of two lists of outcomes the longer one goes on only if the shorter does. -/
theorem GoesOn.of_prefix {more : List Outcome} (h : GoesOn retries more)
    (hfewer : outcomes <+: more) : GoesOn retries outcomes :=
  ⟨fun o ho => h.1 o (hfewer.subset ho), fun hrow => h.2 (hrow.trans hfewer.isInfix)⟩

/-- After one more outcome a poll goes on if it went on before, the outcome does not end it, and the
failures in a row are not too many. -/
theorem goesOn_concat : GoesOn retries (outcomes ++ [o]) ↔
    GoesOn retries outcomes ∧ (o ≠ .idle ∧ o ≠ .permanent) ∧
      streak (outcomes ++ [o]) ≤ retries := by
  have hrow : List.replicate (retries + 1) .transient <:+ outcomes ++ [o] ↔
      ¬ streak (outcomes ++ [o]) ≤ retries := by
    rw [replicate_suffix_iff, not_le, Nat.succ_le_iff]
  simp only [GoesOn, List.forall_mem_append, List.forall_mem_singleton, List.infix_concat_iff,
    hrow, not_or, not_not]
  tauto

theorem GoesOn.streak_le (h : GoesOn retries outcomes) : streak outcomes ≤ retries := by
  by_contra hnot
  exact h.2 ((replicate_suffix_iff _ _).mpr (Nat.succ_le_of_lt (not_le.mp hnot))).isInfix

end Outcome

/-- What a poll does at its own pace: its waits and its requests. -/
def Action.isPaceOf (id : TaskId) : Action → Bool
  | .wait poll _ => poll == id
  | a => a.asks id

/-- A poll that waits and looks in turn. -/
def rounds (id : TaskId) (delays : List Number) : List Action :=
  delays.flatMap fun delay => [.wait id delay, .ask (.task id) .status]

namespace Control

/-! ## Outcomes in a run -/

/-- How the answer to a look turns out that was asked for in a session. -/
inductive Yields (c : Control) (n : Nat) (r : Except Failure Response) : Outcome → Prop
  | active {status} (hr : c.lookStatus n r = .ok status)
      (hp : Progress.isActive (c.lookSession n r).progress = true) : Yields c n r .active
  | idle {status} (hr : c.lookStatus n r = .ok status)
      (hp : (c.lookSession n r).progress.lt (.whole 0) = true) : Yields c n r .idle
  | transient {f} (hr : c.lookStatus n r = .error f) (hf : f.IsTransient) : Yields c n r .transient
  | permanent {f} (hr : c.lookStatus n r = .error f) (hremote : f.isRemote = true)
      (hf : ¬ f.IsTransient) : Yields c n r .permanent

/-- A progress that says that a job runs is not below zero. -/
theorem lt_zero_of_isActive {progress : Number} (h : Progress.isActive progress = true) :
    progress.lt (.whole 0) = false := by
  rw [Bool.eq_false_iff]
  intro hlt
  cases progress with
  | flag b => cases b <;> cases hlt
  | whole n => exact absurd ((Number.le_whole 0 n).mp h) (not_le.mpr ((Number.lt_whole n 0).mp hlt))
  | real x =>
      have hless : x.compareInt? 0 = some .lt := beq_iff_eq.mp hlt
      simp only [Progress.isActive, Number.le, Number.compare?, hless] at h
      cases h

theorem Yields.of_ok {c : Control} {n : Nat} {r : Except Failure Response} {o : Outcome}
    {status : JobStatus} (h : c.Yields n r o) (hr : c.lookStatus n r = .ok status) :
    o = if (c.lookSession n r).progress.lt (.whole 0) then .idle else .active := by
  cases h with
  | active _ hp => rw [lt_zero_of_isActive hp, if_neg Bool.false_ne_true]
  | idle _ hp => rw [if_pos hp]
  | transient hr' => cases hr.symm.trans hr'
  | permanent hr' => cases hr.symm.trans hr'

theorem Yields.of_error {c : Control} {n : Nat} {r : Except Failure Response} {o : Outcome}
    {f : Failure} (h : c.Yields n r o) (hr : c.lookStatus n r = .error f) :
    f.isRemote = true ∧ (o = .transient ∧ f.IsTransient ∨ o = .permanent ∧ ¬ f.IsTransient) := by
  cases h with
  | active hr' => cases hr.symm.trans hr'
  | idle hr' => cases hr.symm.trans hr'
  | transient hr' hf =>
      cases hr.symm.trans hr'
      exact ⟨hf.1, Or.inl ⟨rfl, hf⟩⟩
  | permanent hr' hremote hf =>
      cases hr.symm.trans hr'
      exact ⟨hremote, Or.inr ⟨rfl, hf⟩⟩

theorem exists_units_of_progress {status : JobStatus} {progress : Number}
    (h : Progress.ofStatus status = .ok progress) : ∃ u, progress.units? = some u := by
  have hfinite : ∀ {x : Binary64}, x.isFinite = true → ∃ u, (Number.real x).units? = some u :=
    fun hx => ⟨_, if_pos hx⟩
  unfold Progress.ofStatus Progress.fraction at h
  split at h
  · cases h
    exact hfinite (by decide +kernel)
  · split at h
    · cases h
      exact hfinite (by decide +kernel)
    · simp only [Number.div, Number.whole?, Number.divNat] at h
      cases hx : Binary64.ofQuotient? status.bytesCopied status.bytesTotal.toNat with
      | none =>
          rw [hx] at h
          cases h
      | some x =>
          rw [hx] at h
          cases h
          exact hfinite (Binary64.isFinite_ofQuotient? hx)

/-- A look has an outcome, unless the answer breaks the poll off. -/
theorem exists_yields {c : Control} {n : Nat} {r : Except Failure Response}
    (hn : n = c.session.number)
    (h : ∀ f, c.lookStatus n r = .error f → f.isRemote = true) : ∃ o, c.Yields n r o := by
  cases hr : c.lookStatus n r with
  | error f =>
      by_cases hf : f.IsTransient
      · exact ⟨.transient, .transient hr hf⟩
      · exact ⟨.permanent, .permanent hr (h f hr) hf⟩
  | ok status =>
      obtain ⟨hlook, hmerged⟩ := merged_of_lookStatus_ok hr hn
      obtain ⟨progress, hp⟩ := Session.progress_of_merged hmerged
      obtain ⟨items, hs⟩ := Session.merge_of_progress (s := c.session) hp
      have hprogress : (c.lookSession n r).progress = progress := by rw [hlook, hs]; rfl
      obtain ⟨u, hu⟩ := exists_units_of_progress hp
      rw [← hprogress] at hu
      rcases lt_or_ge u 0 with hless | hge
      · exact ⟨.idle, .idle hr ((Number.lt_iff_of_units hu Number.units?_zero).mpr hless)⟩
      · exact ⟨.active, .active hr ((Number.le_iff_of_units Number.units?_zero hu).mpr hge)⟩

/-- Whether an input is the answer to a look of a poll. -/
def AnswersLook (c : Control) (id : TaskId) (i : Input) : Prop :=
  ∃ n stopped failures r, c.task? id = some (.poll n stopped (.asking failures)) ∧
    i = .response (.task id) r

/-- The looks of a poll turn out like this in a run, one after the other. -/
inductive Looked (c : Control) (id : TaskId) : List Input → List Outcome → Prop
  | nil : Looked c id [] []
  | other {inputs : List Input} {outcomes : List Outcome} {i : Input}
      (h : Looked c id inputs outcomes) (hi : ¬ (c.run inputs).1.AnswersLook id i) :
      Looked c id (inputs ++ [i]) outcomes
  | look {inputs : List Input} {outcomes : List Outcome} {n : Nat} {stopped : Bool}
      {failures : Nat} {r : Except Failure Response} {o : Outcome}
      (h : Looked c id inputs outcomes)
      (ht : (c.run inputs).1.task? id = some (.poll n stopped (.asking failures)))
      (ho : (c.run inputs).1.Yields n r o) :
      Looked c id (inputs ++ [.response (.task id) r]) (outcomes ++ [o])

end Control

end CardImport
