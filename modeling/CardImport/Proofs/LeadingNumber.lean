import CardImport.Proofs.Span
import CardImport.TakeNumber
import Mathlib.Data.List.Induction
import Mathlib.Data.Nat.Digits.Defs

/-!
# The number that a text begins with

A text begins with a whole number if it falls into white space, a sign or none, decimal digits of
any script, and a rest that does not go on with a digit. White space, signs and digits have no
character in common, so the three are found one after the other: the reader gives a number exactly
if there are such parts, it is the one that the digits stand for in base ten, and the only fault is
that there are too many of them.
-/

namespace CardImport

/-! ## Digits -/

namespace Text

theorem isDigit_iff (c : Char) :
    isDigit c = true ↔ ∃ z ∈ zeroDigits, z ≤ c.toNat ∧ c.toNat < z + 10 := by
  simp [isDigit, digitValue?]

theorem not_isDigit_of_isBlank {c : Char} (h : isBlank c = true) : isDigit c = false := by
  have happart : ∀ n ∈ blanks, ∀ z ∈ zeroDigits, ¬ (z ≤ n ∧ n < z + 10) := by decide +kernel
  rw [← Bool.not_eq_true, isDigit_iff]
  rintro ⟨z, hz, hc⟩
  exact happart c.toNat (List.contains_iff_mem.mp h) z hz hc

theorem exists_digitValue? {c : Char} (h : isDigit c = true) : ∃ n, digitValue? c = some n :=
  Option.isSome_iff_exists.mp h

def digitValues (cs : List Char) : List ℕ := cs.filterMap digitValue?

/-- A run of digits stands for a number in base ten, the last digit for the ones. -/
theorem digitsValue_eq_ofDigits {cs : List Char} (h : ∀ c ∈ cs, isDigit c = true) :
    digitsValue cs = Nat.ofDigits 10 (digitValues cs).reverse := by
  induction cs using List.reverseRecOn with
  | nil => rfl
  | append_singleton front c ih =>
      obtain ⟨hfront, hc⟩ := List.forall_mem_append.mp h
      obtain ⟨n, hn⟩ := exists_digitValue? (hc c (List.mem_singleton_self c))
      have hsplit : digitValues (front ++ [c]) = digitValues front ++ [n] := by
        simp [digitValues, hn]
      calc digitsValue (front ++ [c]) = digitsValue front * 10 + n := by simp [digitsValue, hn]
        _ = n + 10 * Nat.ofDigits 10 (digitValues front).reverse := by
            rw [ih hfront, Nat.add_comm, Nat.mul_comm]
        _ = Nat.ofDigits 10 (digitValues (front ++ [c])).reverse := by
            rw [hsplit, List.reverse_append, List.reverse_singleton, List.singleton_append,
              Nat.ofDigits_cons]

end Text

namespace TakeNumber

/-! ## Signs -/

/-- The sign in front of a number, if there is one. -/
inductive Sign where
  | absent
  | plus
  | minus

namespace Sign

def chars : Sign → List Char
  | absent => []
  | plus => ['+']
  | minus => ['-']

def isMinus : Sign → Bool
  | minus => true
  | _ => false

def apply (sign : Sign) (n : ℕ) : ℤ := if sign.isMinus then -n else n

end Sign

theorem splitSign_append (sign : Sign) {cs : List Char}
    (h : ∀ c ∈ cs.head?, Text.isDigit c = true) :
    Number.splitSign (sign.chars ++ cs) = (sign.isMinus, cs) := by
  cases sign with
  | plus => rfl
  | minus => rfl
  | absent =>
      show Number.splitSign cs = (false, cs)
      unfold Number.splitSign
      split
      · exact absurd (h '-' rfl) (by decide)
      · exact absurd (h '+' rfl) (by decide)
      · rfl

/-- What is left behind the sign is all but the sign. -/
theorem exists_sign (cs : List Char) :
    ∃ sign : Sign, sign.chars ++ (Number.splitSign cs).2 = cs := by
  unfold Number.splitSign
  split
  · exact ⟨.minus, rfl⟩
  · exact ⟨.plus, rfl⟩
  · exact ⟨.absent, rfl⟩

/-! ## Parts of a text -/

/-- The parts of a text that begins with a whole number. -/
structure Leading (text : List Char) where
  blanks : List Char
  sign : Sign
  digits : List Char
  rest : List Char
  joined : blanks ++ (sign.chars ++ (digits ++ rest)) = text
  blank : ∀ c ∈ blanks, Text.isBlank c = true
  digit : ∀ c ∈ digits, Text.isDigit c = true
  ne_nil : digits ≠ []
  stop : ∀ c ∈ rest.head?, Text.isDigit c = false

namespace Leading

variable {text : List Char}

/-- The whole number that the digits stand for in base ten, with its sign. -/
def value (l : Leading text) : ℤ :=
  l.sign.apply (Nat.ofDigits 10 (Text.digitValues l.digits).reverse)

theorem value_eq (l : Leading text) : l.value = l.sign.apply (Text.digitsValue l.digits) := by
  rw [value, Text.digitsValue_eq_ofDigits l.digit]

theorem head_digit (l : Leading text) :
    ∀ c ∈ (l.digits ++ l.rest).head?, Text.isDigit c = true := by
  obtain ⟨d, digits, hdigits⟩ := List.exists_cons_of_ne_nil l.ne_nil
  rw [hdigits]
  rintro _ ⟨⟩
  exact l.digit d (hdigits ▸ List.mem_cons_self)

theorem blanks_stop (l : Leading text) :
    ∀ c ∈ (l.sign.chars ++ (l.digits ++ l.rest)).head?, Text.isBlank c = false := by
  cases l.sign with
  | plus =>
      rintro _ ⟨⟩
      decide
  | minus =>
      rintro _ ⟨⟩
      decide
  | absent =>
      intro c hc
      rw [← Bool.not_eq_true]
      intro hblank
      exact absurd (l.head_digit c hc) (Bool.eq_false_iff.mp (Text.not_isDigit_of_isBlank hblank))

/-- The reader finds the sign and the digits. -/
theorem split_eq (l : Leading text) : split text = (l.sign.isMinus, l.digits) := by
  have hblanks : text.dropWhile Text.isBlank = l.sign.chars ++ (l.digits ++ l.rest) := by
    rw [← (span_of_stop l.blank l.blanks_stop).2, l.joined]
  rw [split, hblanks, splitSign_append l.sign l.head_digit]
  exact congrArg (l.sign.isMinus, ·) (span_of_stop l.digit l.stop).1

/-- If the reader finds digits, the text has the parts. -/
theorem of_split (h : (split text).2 ≠ []) : Nonempty (Leading text) := by
  obtain ⟨sign, hsign⟩ := exists_sign (text.dropWhile Text.isBlank)
  generalize hbehind : (Number.splitSign (text.dropWhile Text.isBlank)).2 = behind at hsign
  have hdigits : (split text).2 = behind.takeWhile Text.isDigit := by rw [← hbehind]; rfl
  exact ⟨{
    blanks := text.takeWhile Text.isBlank
    sign := sign
    digits := behind.takeWhile Text.isDigit
    rest := behind.dropWhile Text.isDigit
    joined := by
      rw [List.takeWhile_append_dropWhile, hsign, List.takeWhile_append_dropWhile]
    blank := fun _ => List.mem_takeWhile_imp
    digit := fun _ => List.mem_takeWhile_imp
    ne_nil := hdigits ▸ h
    stop := stop_of_dropWhile behind }⟩

end Leading

/-! ## What is read -/

variable {num : String}

theorem parse?_of_leading (l : Leading num.toList) :
    parse? num = if digitLimit < l.digits.length then .error (.tooManyDigits l.digits.length)
      else .ok (some l.value) := by
  unfold parse?
  rw [l.split_eq]
  split
  · rename_i hnil
    exact absurd (congrArg Prod.snd hnil) l.ne_nil
  · rename_i hpair
    obtain ⟨rfl, rfl⟩ := Prod.mk.inj hpair
    rw [l.value_eq]
    rfl

theorem parse?_of_isEmpty (h : IsEmpty (Leading num.toList)) : parse? num = .ok none := by
  have hnone : (split num.toList).2 = [] := by
    by_contra hsome
    exact h.elim (Leading.of_split hsome).some
  unfold parse?
  rw [← Prod.mk.eta (p := split num.toList), hnone]

/-- A text is read as a number exactly if it begins with that number, in no more digits than the
limit, and as no number exactly if it begins with none. The one fault is that it begins with a
number of more digits. -/
theorem parse?_iff (num : String) :
    (∀ n, parse? num = .ok (some n) ↔
      ∃ l : Leading num.toList, l.digits.length ≤ digitLimit ∧ l.value = n) ∧
    (parse? num = .ok none ↔ IsEmpty (Leading num.toList)) ∧
    ∀ e, parse? num = .error e ↔ ∃ l : Leading num.toList,
      digitLimit < l.digits.length ∧ e = .tooManyDigits l.digits.length := by
  have hfits (l : Leading num.toList) (h : l.digits.length ≤ digitLimit) :
      parse? num = .ok (some l.value) := by
    rw [parse?_of_leading l, if_neg (Nat.not_lt.mpr h)]
  have hlong (l : Leading num.toList) (h : digitLimit < l.digits.length) :
      parse? num = .error (.tooManyDigits l.digits.length) := by
    rw [parse?_of_leading l, if_pos h]
  -- A text has one leading number or none, and the reader says which.
  rcases isEmpty_or_nonempty (Leading num.toList) with hnone | ⟨⟨l⟩⟩
  · rw [parse?_of_isEmpty hnone]
    refine ⟨fun n => ?_, iff_of_true rfl hnone, fun e => ?_⟩
    · exact iff_of_false nofun fun ⟨l, _⟩ => hnone.elim l
    · exact iff_of_false nofun fun ⟨l, _⟩ => hnone.elim l
  · refine ⟨fun n => ⟨fun h => ?_, ?_⟩, ?_, fun e => ⟨fun h => ?_, ?_⟩⟩
    · rcases Nat.lt_or_ge digitLimit l.digits.length with hmany | hfew
      · cases (hlong l hmany).symm.trans h
      · cases (hfits l hfew).symm.trans h
        exact ⟨l, hfew, rfl⟩
    · rintro ⟨l', hfew, rfl⟩
      exact hfits l' hfew
    · refine iff_of_false ?_ (not_isEmpty_iff.mpr ⟨l⟩)
      rw [parse?_of_leading l]
      split <;> exact nofun
    · rcases Nat.lt_or_ge digitLimit l.digits.length with hmany | hfew
      · cases (hlong l hmany).symm.trans h
        exact ⟨l, hmany, rfl⟩
      · cases (hfits l hfew).symm.trans h
    · rintro ⟨l', hmany, rfl⟩
      exact hlong l' hmany

-- Digits of any script count, and the first other character ends them.
example : parse? "\t-\u0664\u0662b7" = .ok (some (-42)) := by decide +kernel

end TakeNumber

end CardImport
