import CardImport.Proofs.Json.Nesting
import CardImport.Proofs.Json.Stopping
import CardImport.Proofs.Recall

/-!
# Damaged memory files

A file that holds no object is to be ignored, whatever its bytes are. It is, as long as the reader
reads it or finds a fault of its syntax. There are three other ways for the reader to stop, and they
end what opens the memory: bytes that are not UTF-8, a whole number of too many digits, and too many
arrays and objects inside each other.
-/

namespace CardImport

namespace Json

theorem parseFailure_eq_notJson_iff (e : JsonError) :
    parseFailure e = .notJson ↔ e = .malformed := by
  cases e <;> simp [parseFailure]

variable [Nesting]

/-- Whether a file is UTF-8 with a text that is read as a value, or found to have a fault of
syntax. -/
def IsJudged (bytes : ByteArray) : Prop :=
  ∃ s, String.fromUTF8? bytes = some s ∧ ∀ e, parse s.toList = .error e → e = .malformed

theorem ofFile_of_fromUTF8? {bytes : ByteArray} {s : String}
    (hs : String.fromUTF8? bytes = some s) :
    ofFile bytes = (parse s.toList).mapError parseFailure := by
  rw [ofFile, hs]

theorem isJudged_iff (bytes : ByteArray) :
    IsJudged bytes ↔ ∀ f, ofFile bytes = .error f → f = .notJson := by
  cases hs : String.fromUTF8? bytes with
  | none =>
      have hfile : ofFile bytes = .error .notUtf8 := by rw [ofFile, hs]
      constructor
      · rintro ⟨s, hs', -⟩
        cases hs.symm.trans hs'
      · intro h
        cases h .notUtf8 hfile
  | some s =>
      have hfile := ofFile_of_fromUTF8? hs
      constructor
      · rintro ⟨s', hs', hmalformed⟩ f hf
        cases hs.symm.trans hs'
        rw [hfile] at hf
        cases hparse : parse s.toList with
        | error e =>
            rw [hparse] at hf
            cases hf
            exact (parseFailure_eq_notJson_iff e).mpr (hmalformed e hparse)
        | ok x =>
            rw [hparse] at hf
            cases hf
      · intro h
        refine ⟨s, hs, fun e he => (parseFailure_eq_notJson_iff e).mp (h _ ?_)⟩
        rw [hfile, he]
        rfl

/-- A text with no more digits in a row, and no more opening brackets, than the limits is judged. -/
theorem isJudged_of_modest {bytes : ByteArray} {s : String} (hs : String.fromUTF8? bytes = some s)
    (hdigits : ∀ n, HasDigits n s.toList → n ≤ digitLimit)
    (hopened : opened s.toList ≤ Nesting.limit) : IsJudged bytes := by
  refine ⟨s, hs, fun e he => ?_⟩
  have haccounts := accounts_of_parse he
  cases e with
  | malformed => rfl
  | tooManyDigits n =>
      obtain ⟨hlimit, hrow⟩ := haccounts
      exact absurd hlimit (Nat.not_lt.mpr (hdigits n hrow))
  | tooDeep innermost => exact absurd haccounts (Nat.not_lt.mpr hopened)

end Json

namespace Memory

open Noted

section

variable [Json.Nesting]

/-- Whether a file is opened as it should be, whatever it contains: as a memory of the texts of its
object, and as an empty one if it holds none. -/
def OpensWell (path : String) (bytes : ByteArray) : Prop :=
  ∃ m, Gives (load path (some bytes)) m ∧ (∀ name, m.get? name = textIn? (some bytes) name) ∧
    ((∀ fields, Json.ofFile bytes ≠ .ok (.obj fields)) → m = {})

theorem opensWell_of_isJudged {path : String} {bytes : ByteArray} (h : Json.IsJudged bytes) :
    OpensWell path bytes := by
  rw [Json.isJudged_iff] at h
  have hgives : ∃ m, Gives (load path (some bytes)) m ∧
      ((∀ fields, Json.ofFile bytes ≠ .ok (.obj fields)) → m = {}) := by
    rcases load_cases path bytes with
      ⟨fields, hread, hload⟩ | ⟨-, ⟨-, _, hload⟩ | ⟨f, hread, hnot, -⟩⟩
    · rw [hload]
      exact ⟨_, gives_pure _, fun hnone => absurd hread (hnone fields)⟩
    · rw [hload]
      exact ⟨{}, fun _ => rfl, fun _ => rfl⟩
    · exact absurd (h f hread) hnot
  obtain ⟨m, hm, hempty⟩ := hgives
  exact ⟨m, hm, (of_load (hm [])).2, hempty⟩

theorem isJudged_of_opensWell {path : String} {bytes : ByteArray} (h : OpensWell path bytes) :
    Json.IsJudged bytes := by
  obtain ⟨m, hm, -⟩ := h
  rw [Json.isJudged_iff]
  rcases load_cases path bytes with ⟨fields, hread, -⟩ | ⟨-, ⟨hnot, -⟩ | ⟨f, -, -, hload⟩⟩
  · intro f hf
    cases hread.symm.trans hf
  · exact hnot
  · have hfails := hm []
    rw [hload] at hfails
    cases hfails

/-- A file is opened as it should be exactly if the reader reads it or finds a fault of its syntax.
So is every UTF-8 text without a row of too many digits and without too many opening brackets. -/
theorem opensWell_iff (path : String) (bytes : ByteArray) :
    (OpensWell path bytes ↔ Json.IsJudged bytes) ∧
      ∀ s, String.fromUTF8? bytes = some s →
        (∀ n, Json.HasDigits n s.toList → n ≤ digitLimit) →
        Json.opened s.toList ≤ Json.Nesting.limit → OpensWell path bytes := by
  refine ⟨⟨isJudged_of_opensWell, opensWell_of_isJudged⟩, ?_⟩
  intro s hs hdigits hopened
  exact opensWell_of_isJudged (Json.isJudged_of_modest hs hdigits hopened)

end

/-- An object that is not closed is ignored. -/
theorem opensWell_unclosed : let bytes := "\x7b\"lastImportPath\":".toUTF8
    (∃ s, String.fromUTF8? bytes = some s) ∧ OpensWell (filePath "/home/user") bytes := by
  intro bytes
  have hread : String.fromUTF8? bytes = some "\x7b\"lastImportPath\":" := Json.fromUTF8?_toUTF8 _
  refine ⟨⟨_, hread⟩, (opensWell_iff _ bytes).2 _ hread ?_ (by decide)⟩
  rintro n ⟨digits, hinfix, rfl, -⟩
  exact hinfix.length_le.trans (by decide)

/-! ## Files that are not ignored -/

theorem not_opensWell_of_parse [Json.Nesting] {path : String} {cs : List Char} {e : JsonError}
    (h : Json.parse cs = .error e) (hne : e ≠ .malformed) :
    ¬ OpensWell path (String.ofList cs).toUTF8 := by
  intro hopens
  obtain ⟨s, hs, hmalformed⟩ := isJudged_of_opensWell hopens
  rw [Json.fromUTF8?_toUTF8] at hs
  cases hs
  rw [String.toList_ofList] at hmalformed
  exact hne (hmalformed e h)

theorem not_opensWell_tooLong [Json.Nesting] (path : String) {n : ℕ} (hn : digitLimit < n) :
    ¬ OpensWell path (String.ofList (List.replicate n '1')).toUTF8 := by
  have hwhole : Json.Whole (List.replicate n '1') := by
    have hsome : n ≠ 0 := Nat.ne_zero_of_lt hn
    refine ⟨fun c hc => ?_, by simp [hsome], Or.inr (by simp [List.head?_replicate, hsome])⟩
    rw [List.eq_of_mem_replicate hc]
    rfl
  have hlength : digitLimit < (List.replicate n '1').length := by
    rw [List.length_replicate]
    exact hn
  exact not_opensWell_of_parse (Json.parse_tooLong hwhole hlength) (by simp)

/-- A byte that is no UTF-8, one digit more than the limit, and more brackets than may be nested end
what opens the memory. -/
theorem not_opensWell_damaged : let path := filePath "/home/user"
    ¬ OpensWell path ⟨#[0xff]⟩ ∧
      ¬ OpensWell path (String.ofList (List.replicate (digitLimit + 1) '1')).toUTF8 ∧
      ¬ OpensWell path (String.ofList (Json.bracketed 100000 [])).toUTF8 := by
  intro path
  refine ⟨fun h => ?_, not_opensWell_tooLong path (Nat.lt_succ_self _), ?_⟩
  · obtain ⟨s, hs, -⟩ := isJudged_of_opensWell h
    have hnone : String.fromUTF8? ⟨#[0xff]⟩ = none := by decide +kernel
    cases hnone.symm.trans hs
  · exact not_opensWell_of_parse (Json.parse_bracketed (by decide) []) (by simp)

end Memory

end CardImport
