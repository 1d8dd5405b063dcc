import Mathlib.Data.List.TakeWhile

/-!
# Where a run ends

A run of elements of a class goes on up to the first element that is not of it.
-/

namespace CardImport

variable {α : Type} {p : α → Bool} {run rest : List α}

/-- A run in front of an element that is not of the class, or of nothing, is cut off as a whole. -/
theorem span_of_stop (hrun : ∀ a ∈ run, p a = true) (hstop : ∀ a ∈ rest.head?, p a = false) :
    (run ++ rest).takeWhile p = run ∧ (run ++ rest).dropWhile p = rest := by
  rw [List.takeWhile_append_of_pos hrun, List.dropWhile_append_of_pos hrun]
  cases rest with
  | nil => exact ⟨List.append_nil run, rfl⟩
  | cons a later =>
      have ha : ¬ p a = true := Bool.eq_false_iff.mp (hstop a rfl)
      rw [List.takeWhile_cons_of_neg ha, List.dropWhile_cons_of_neg ha, List.append_nil]
      exact ⟨rfl, rfl⟩

/-- What is left behind a run does not go on with an element of the class. -/
theorem stop_of_dropWhile (as : List α) : ∀ a ∈ (as.dropWhile p).head?, p a = false := by
  intro a ha
  have hstop := List.head?_dropWhile_not p as
  rwa [Option.mem_def.mp ha] at hstop

end CardImport
