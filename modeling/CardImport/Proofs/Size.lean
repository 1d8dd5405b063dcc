import CardImport.Proofs.Number.Range
import CardImport.Proofs.Progress
import CardImport.Size

/-!
# Sizes and progress that can be shown

A size has a text and a progress has a percentage as long as the numbers of bytes stay in the range
of binary numbers.
-/

namespace CardImport

/-- A size that is in the range of binary numbers can be shown. -/
theorem Size.exists_text {n : ℤ} (h : n.natAbs < twoTo 1023) :
    ∃ text, Size.text (.whole n) = .ok text := by
  unfold Size.text
  split
  · exact ⟨_, rfl⟩
  · split
    · obtain ⟨x, hx⟩ := Number.exists_toBinary h
      rw [hx]
      exact ⟨_, rfl⟩
    · obtain ⟨x, hx⟩ := Number.exists_divNat (d := step) (by decide) h
      rw [hx]
      exact ⟨_, rfl⟩

namespace Progress

theorem exists_wholeOfBinary {x : Binary64} (hx : x.isFinite = true) :
    ∃ n, Number.wholeOfBinary x = .ok n := by
  cases x with
  | finite negative m e canonical => exact ⟨_, rfl⟩
  | _ => cases hx

theorem exists_percentage_real {x : Binary64} (hx : x.isFinite = true)
    (hunits : x.units.natAbs ≤ twoTo 2074) : ∃ percent, percentage? (.real x) = .ok percent := by
  have hhundred : (Binary64.ofInt 100).isFinite = true := by decide +kernel
  have hfactor : (Binary64.ofInt 100).units.natAbs ≤ twoTo (7 + 1074) :=
    Binary64.natAbs_units_ofRatio Nat.one_pos (by norm_num) _
  have hproduct : x.units.natAbs * (Binary64.ofInt 100).units.natAbs <
      twoTo 1023 * (Binary64.unit * Binary64.unit) := by
    unfold Binary64.unit
    calc x.units.natAbs * (Binary64.ofInt 100).units.natAbs
        ≤ twoTo 2074 * twoTo (7 + 1074) := Nat.mul_le_mul hunits hfactor
      _ = twoTo (2074 + (7 + 1074)) := (twoTo_add _ _).symm
      _ < twoTo (1023 + (1074 + 1074)) := twoTo_lt_twoTo (by decide)
      _ = twoTo 1023 * (twoTo 1074 * twoTo 1074) := by rw [twoTo_add, twoTo_add]
  have hmul : Number.mul (.real x) (.whole 100) = .ok (.real (x.mul (Binary64.ofInt 100))) := by
    have hbinary : Number.toBinary (.whole 100) = .ok (Binary64.ofInt 100) := by
      rw [Number.toBinary, Binary64.ofInt?, if_pos hhundred]
    simp only [Number.mul, Number.whole?, hbinary]
    rfl
  obtain ⟨n, hn⟩ := exists_wholeOfBinary (Binary64.isFinite_mul hx hhundred hproduct)
  unfold percentage?
  split
  · exact ⟨_, rfl⟩
  · rw [hmul]
    refine ⟨some (max 0 (min 100 n)), ?_⟩
    show ((Number.wholeOfBinary (x.mul (Binary64.ofInt 100))) >>= _) = _
    rw [hn]
    rfl

/-- The progress of a job that has copied a number of bytes far within the range of binary numbers
can be worked out and shown. -/
theorem exists_percentage {status : JobStatus} (h : status.bytesCopied.natAbs < twoTo 1000) :
    ∃ p percent, ofStatus status = .ok p ∧ percentage? p = .ok percent := by
  have hshown : ∀ {x : Binary64}, x.isFinite = true → x.units.natAbs ≤ twoTo 2074 →
      ∃ p percent, (.ok (.real x) : Except NumberError Number) = .ok p ∧
        percentage? p = .ok percent := by
    intro x hx hunits
    obtain ⟨percent, hpercent⟩ := exists_percentage_real hx hunits
    exact ⟨_, percent, rfl, hpercent⟩
  unfold ofStatus fraction
  split
  · exact hshown (x := Binary64.ofInt (-1)) (by decide +kernel) (by decide +kernel)
  · split
    · exact hshown (x := Binary64.zero false) (by decide +kernel) (by decide +kernel)
    · rename_i htotal
      rw [Number.le_whole, not_le] at htotal
      have hpositive : 0 < status.bytesTotal.toNat := by omega
      have hcopied := h.trans (twoTo_lt_twoTo (by decide : 1000 < 1023))
      have hfinite := Binary64.isFinite_ofRatio hpositive (Binary64.div_lt_zpow hpositive hcopied)
        (decide (status.bytesCopied < 0))
      have hunits := Binary64.natAbs_units_ofRatio hpositive (Binary64.div_lt_zpow hpositive h)
        (decide (status.bytesCopied < 0))
      simp only [Number.div, Number.whole?, Number.divNat, Binary64.ofQuotient?_eq hpositive hcopied]
      exact hshown hfinite hunits

end Progress

end CardImport
