import CardImport.Proofs.Numbering
import CardImport.Timestamp.Reader

/-!
# Spellings of a timestamp

Before a text is read, white space is cut off its ends, digits behind the sixth of a fraction are
left out, and a `Z` at the end is written in digits. Each of these works on its own part of the
text, whatever stands around it, so texts that differ only there are read as the same.
-/

namespace CardImport

/-! ## Cutting at the ends -/

namespace Text

section

variable {p : Char → Bool} {c : Char} {cs before after : List Char}

theorem trimLeft_append_cons (hc : p c = false) (cs after : List Char) :
    trimLeft p (cs ++ c :: after) = trimLeft p cs ++ c :: after := by
  have hstop : ¬ p c = true := Bool.eq_false_iff.mp hc
  induction cs with
  | nil => exact List.dropWhile_cons_of_neg hstop
  | cons d rest ih =>
      unfold trimLeft at ih ⊢
      rw [List.cons_append, List.dropWhile_cons, List.dropWhile_cons]
      split
      · exact ih
      · rfl

theorem trimRight_append_cons (hc : p c = false) (cs after : List Char) :
    trimRight p (cs ++ c :: after) = cs ++ c :: trimRight p after := by
  have hmirror := trimLeft_append_cons hc after.reverse cs.reverse
  unfold trimLeft at hmirror
  unfold trimRight
  rw [List.reverse_append, List.reverse_cons, List.append_assoc, List.singleton_append, hmirror,
    List.reverse_append, List.reverse_cons, List.reverse_reverse, List.append_assoc,
    List.singleton_append]

theorem trimRight_append_left (h : ∀ c ∈ before, p c = false) (cs : List Char) :
    trimRight p (before ++ cs) = before ++ trimRight p cs := by
  induction before with
  | nil => rfl
  | cons c rest ih =>
      obtain ⟨hc, hrest⟩ := List.forall_mem_cons.mp h
      rw [List.cons_append, ← List.nil_append (c :: (rest ++ cs)), trimRight_append_cons hc,
        ih hrest, List.nil_append, List.cons_append]

theorem trimLeft_append (h : ∀ c ∈ before, p c = true) (cs : List Char) :
    trimLeft p (before ++ cs) = trimLeft p cs :=
  List.dropWhile_append_of_pos h

theorem trimRight_append (h : ∀ c ∈ after, p c = true) (cs : List Char) :
    trimRight p (cs ++ after) = trimRight p cs := by
  have hmirror : ∀ c ∈ after.reverse, p c = true := fun c hc => h c (List.mem_reverse.mp hc)
  rw [trimRight, List.reverse_append, List.dropWhile_append_of_pos hmirror, trimRight]

theorem trimRight_eq_nil (h : ∀ c ∈ after, p c = true) : trimRight p after = [] :=
  trimRight_append h []

theorem trim_append (hbefore : ∀ c ∈ before, p c = true) (hafter : ∀ c ∈ after, p c = true)
    (cs : List Char) : trim p (before ++ cs ++ after) = trim p cs := by
  rw [List.append_assoc, trim, trimLeft_append hbefore, trim]
  cases hcs : trimLeft p cs with
  | nil =>
      have hall : ∀ c ∈ cs, p c = true := by
        simpa [trimLeft, List.dropWhile_eq_nil_iff] using hcs
      rw [trimLeft_append hall]
      exact trimRight_eq_nil fun c hc => hafter c ((List.dropWhile_sublist p).subset hc)
  | cons c rest =>
      have happend : trimLeft p (cs ++ after) = trimLeft p cs ++ after := by
        unfold trimLeft at hcs ⊢
        rw [List.dropWhile_append, hcs]
        rfl
      rw [happend, hcs, trimRight_append hafter]

/-- What is not of the class, and all behind it, stays when the left end is cut. -/
theorem trim_append_cons (hc : p c = false) (cs after : List Char) :
    trim p (cs ++ c :: after) = trimLeft p cs ++ c :: trimRight p after := by
  rw [trim, trimLeft_append_cons hc, trimRight_append_cons hc]

theorem trim_eq_self (h : ∀ c ∈ cs, p c = false) : trim p cs = cs := by
  have hleft : trimLeft p cs = cs := by
    cases cs with
    | nil => rfl
    | cons c rest =>
        exact List.dropWhile_cons_of_neg (Bool.eq_false_iff.mp (h c List.mem_cons_self))
  have hright := trimRight_append_left h []
  rw [List.append_nil] at hright
  rw [trim, hleft, hright]
  exact List.append_nil cs

end

theorem not_isBlank_of_digit {c : Char} (h : isDigit c = true) : isBlank c = false := by
  have hapart : ∀ z ∈ zeroDigits, ∀ b ∈ blanks, ¬ (z ≤ b ∧ b < z + 10) := by decide
  rw [isDigit, digitValue?, Option.isSome_map, List.find?_isSome] at h
  obtain ⟨z, hz, hc⟩ := h
  simp only [Bool.and_eq_true, decide_eq_true_eq] at hc
  rw [isBlank, List.contains_eq_mem, decide_eq_false_iff_not]
  exact fun hblank => hapart z hz _ hblank hc

end Text

namespace Timestamp

open Text

/-! ## Long fractions -/

theorem isDigit_point : isDigit '.' = false := by decide

theorem cutFractions_of_not_digit {c : Char} (hc : isDigit c = false) (seen : Option Nat)
    (cs : List Char) :
    cutFractions seen (c :: cs) = c :: cutFractions (if c = '.' then some 0 else none) cs := by
  rw [cutFractions.eq_def]
  dsimp only
  split
  · rfl
  · rw [hc]
    rfl

theorem cutFractions_digit {c : Char} (hc : isDigit c = true) (seen : Option Nat)
    (cs : List Char) :
    cutFractions seen (c :: cs) =
      if seen.all (· < 6) then c :: cutFractions (seen.map (· + 1)) cs
      else cutFractions seen cs := by
  have hpoint : c ≠ '.' := by
    rintro rfl
    cases isDigit_point.symm.trans hc
  rw [cutFractions.eq_def]
  dsimp only
  rw [if_neg hpoint, hc, if_pos rfl]
  cases seen with
  | none => rfl
  | some n => simp

/-- A character that is no digit starts the count anew, whatever stands before it. -/
theorem cutFractions_append_cons {c : Char} (hc : isDigit c = false) (seen : Option Nat)
    (cs after : List Char) :
    cutFractions seen (cs ++ c :: after) =
      cutFractions seen cs ++ c :: cutFractions (if c = '.' then some 0 else none) after := by
  induction cs generalizing seen with
  | nil => exact cutFractions_of_not_digit hc seen after
  | cons d rest ih =>
      rw [List.cons_append]
      cases hd : isDigit d with
      | false =>
          rw [cutFractions_of_not_digit hd, cutFractions_of_not_digit hd, ih, List.cons_append]
      | true =>
          rw [cutFractions_digit hd, cutFractions_digit hd, ih, ih]
          split <;> rfl

theorem cutFractions_kept {digits : List Char} (h : ∀ c ∈ digits, isDigit c = true) {n : Nat}
    (hn : n + digits.length ≤ 6) (after : List Char) :
    cutFractions (some n) (digits ++ after) =
      digits ++ cutFractions (some (n + digits.length)) after := by
  induction digits generalizing n with
  | nil => rfl
  | cons c rest ih =>
      obtain ⟨hc, hrest⟩ := List.forall_mem_cons.mp h
      rw [List.length_cons] at hn
      have hroom : (some n).all (· < 6) = true := decide_eq_true (by omega)
      have hcount : n + 1 + rest.length = n + (c :: rest).length := by
        rw [List.length_cons]
        omega
      rw [List.cons_append, cutFractions_digit hc, if_pos hroom, Option.map_some,
        ih hrest (by omega), hcount, List.cons_append]

theorem cutFractions_dropped {digits : List Char} (h : ∀ c ∈ digits, isDigit c = true)
    (after : List Char) :
    cutFractions (some 6) (digits ++ after) = cutFractions (some 6) after := by
  induction digits with
  | nil => rfl
  | cons c rest ih =>
      obtain ⟨hc, hrest⟩ := List.forall_mem_cons.mp h
      rw [List.cons_append, cutFractions_digit hc, ih hrest]
      rfl

/-- Digits outside of a fraction are kept, however many there are. -/
theorem cutFractions_none {cs : List Char} (h : '.' ∉ cs) : cutFractions none cs = cs := by
  induction cs with
  | nil => rfl
  | cons c rest ih =>
      rw [List.mem_cons, not_or] at h
      cases hc : isDigit c with
      | false => rw [cutFractions_of_not_digit hc, if_neg (Ne.symm h.1), ih h.2]
      | true =>
          rw [cutFractions_digit hc]
          exact congrArg (c :: ·) (ih h.2)

/-! ## The same text -/

theorem normalized_blanks {before after : List Char} (hbefore : ∀ c ∈ before, isBlank c = true)
    (hafter : ∀ c ∈ after, isBlank c = true) (cs : List Char) :
    normalized (before ++ cs ++ after) = normalized cs := by
  rw [normalized, strip, trim_append hbefore hafter]
  rfl

theorem normalized_fraction {fraction more : List Char} (hlength : fraction.length = 6)
    (hfraction : ∀ c ∈ fraction, isDigit c = true) (hmore : ∀ c ∈ more, isDigit c = true)
    (before after : List Char) :
    normalized (before ++ '.' :: (fraction ++ (more ++ after))) =
      normalized (before ++ '.' :: (fraction ++ after)) := by
  have hcut : ∀ start rest, cutFractions none (start ++ '.' :: (fraction ++ rest)) =
      cutFractions none start ++ '.' :: (fraction ++ cutFractions (some 6) rest) := by
    intro start rest
    rw [cutFractions_append_cons isDigit_point, if_pos rfl, cutFractions_kept hfraction (by omega),
      hlength]
  have hkept : ∀ {digits : List Char}, (∀ c ∈ digits, isDigit c = true) → ∀ rest,
      trimRight isBlank (digits ++ rest) = digits ++ trimRight isBlank rest := fun hdigits rest =>
    trimRight_append_left (fun c hc => not_isBlank_of_digit (hdigits c hc)) rest
  rw [normalized, normalized, strip, strip, trim_append_cons (by decide),
    trim_append_cons (by decide), hkept hfraction, hkept hmore, hkept hfraction, hcut, hcut,
    cutFractions_dropped hmore]

theorem normalized_zulu (cs : List Char) :
    normalized (cs ++ ['Z']) = normalized (cs ++ ['+', '0', '0', ':', '0', '0']) := by
  have hzulu : cutFractions none (strip (cs ++ ['Z'])) =
      cutFractions none (trimLeft isBlank cs) ++ ['Z'] := by
    rw [strip, trim_append_cons (by decide), cutFractions_append_cons (by decide)]
    rfl
  have hzero : cutFractions none (strip (cs ++ ['+', '0', '0', ':', '0', '0'])) =
      cutFractions none (trimLeft isBlank cs) ++ ['+', '0', '0', ':', '0', '0'] := by
    rw [strip, trim_append_cons (by decide), cutFractions_append_cons (by decide)]
    rfl
  rw [normalized, normalized, hzulu, hzero]
  simp [expandZulu]

/-- The changes of a text that make no difference. -/
inductive Respelled : String → String → Prop
  | blanks (before after : List Char) (hbefore : ∀ c ∈ before, isBlank c = true)
      (hafter : ∀ c ∈ after, isBlank c = true) (cs : List Char) :
      Respelled (.ofList cs) (.ofList (before ++ cs ++ after))
  | zulu (cs : List Char) :
      Respelled (.ofList (cs ++ ['+', '0', '0', ':', '0', '0'])) (.ofList (cs ++ ['Z']))
  | digits {fraction more : List Char} (hlength : fraction.length = 6)
      (hfraction : ∀ c ∈ fraction, isDigit c = true) (hmore : ∀ c ∈ more, isDigit c = true)
      (before after : List Char) :
      Respelled (.ofList (before ++ '.' :: (fraction ++ after)))
        (.ofList (before ++ '.' :: (fraction ++ (more ++ after))))

theorem Respelled.normalized_eq {s s' : String} (h : Respelled s s') :
    normalized s'.toList = normalized s.toList := by
  cases h with
  | blanks before after hbefore hafter cs =>
      rw [String.toList_ofList, String.toList_ofList, normalized_blanks hbefore hafter]
  | zulu cs => rw [String.toList_ofList, String.toList_ofList, normalized_zulu]
  | digits hlength hfraction hmore before after =>
      rw [String.toList_ofList, String.toList_ofList,
        normalized_fraction hlength hfraction hmore]

/-! ## What is told of a text -/

def unreadable (s : String) : Entry :=
  ⟨.warning, .decoding, "Ignoring unparseable timestamp: " ++ Text.quoted s⟩

/-- A text never fails, and is noted exactly if it is not empty and cannot be read. -/
theorem run_decode (s : String) (before : List Entry) :
    (decode (.str s)).run.run before =
      (.ok (ofText? s), before ++
        if s ≠ "" ∧ read? (normalized s.toList) = none then [unreadable s] else []) := by
  by_cases hempty : s = ""
  · subst hempty
    exact congrArg (Prod.mk _) (List.append_nil before).symm
  · have hsome : (Json.str s).truthy = true := bne_iff_ne.mpr hempty
    rw [decode, hsome]
    cases read? (normalized s.toList) with
    | none =>
        have hnoted : (if s ≠ "" ∧ (none : Option Timestamp) = none then [unreadable s] else []) =
            [unreadable s] := if_pos ⟨hempty, rfl⟩
        rw [hnoted]
        rfl
    | some t =>
        have hquiet : (if s ≠ "" ∧ some t = none then [unreadable s] else []) = [] :=
          if_neg fun h => nomatch h.2
        rw [hquiet, List.append_nil]
        rfl

theorem outcome_decode (s : String) :
    (decode (.str s)).outcome =
      (.ok (ofText? s),
        if s ≠ "" ∧ read? (normalized s.toList) = none then [unreadable s] else []) :=
  run_decode s []

end Timestamp

end CardImport
