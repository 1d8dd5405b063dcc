import CardImport.Proofs.LeadingNumber
import CardImport.Session.Basic

/-!
# Numbering

The number of an item is the decimal text of a whole number, and reading that text gives the number
back, however large it is and also below zero. So numbering a list from its first item on gives all
items consecutive numbers.
-/

namespace CardImport

/-! ## Digits -/

theorem toNat_of_isDigit {c : Char} (h : c.isDigit = true) : 48 ≤ c.toNat ∧ c.toNat ≤ 57 := by
  simp only [Char.isDigit, Bool.and_eq_true, decide_eq_true_eq] at h
  exact ⟨h.1, h.2⟩

namespace Text

theorem digitValue?_of_isDigit {c : Char} (h : c.isDigit = true) :
    digitValue? c = some (c.toNat - 48) := by
  have hc := toNat_of_isDigit h
  have hfirst : (decide (48 ≤ c.toNat) && decide (c.toNat < 48 + 10)) = true := by
    simp only [Bool.and_eq_true, decide_eq_true_eq]
    omega
  -- The first run of digits is that of ASCII.
  have hruns : zeroDigits = 48 :: zeroDigits.tail := rfl
  rw [digitValue?, hruns, List.find?_cons, hfirst]
  rfl

theorem isDigit_of_isDigit {c : Char} (h : c.isDigit = true) : isDigit c = true := by
  rw [isDigit, digitValue?_of_isDigit h]
  rfl

theorem not_isBlank_of_isDigit {c : Char} (h : c.isDigit = true) : isBlank c = false := by
  have hc := toNat_of_isDigit h
  simp only [isBlank, blanks, List.contains_eq_mem, decide_eq_false_iff_not, List.mem_cons,
    List.not_mem_nil, or_false]
  omega

theorem digitsValue_eq_ofDigitChars {cs : List Char} (h : ∀ c ∈ cs, c.isDigit = true) :
    digitsValue cs = Nat.ofDigitChars 10 cs 0 := by
  have hfold : ∀ n, cs.foldl (fun n c => n * 10 + (digitValue? c).getD 0) n =
      Nat.ofDigitChars 10 cs n := by
    induction cs with
    | nil => exact fun _ => rfl
    | cons c rest ih =>
        intro n
        rw [List.foldl_cons, digitValue?_of_isDigit (h c List.mem_cons_self),
          ih fun d hd => h d (List.mem_cons_of_mem _ hd), Nat.ofDigitChars_cons, Nat.mul_comm]
        rfl
  exact hfold 0

theorem digitsValue_toDigits (n : Nat) : digitsValue (Nat.toDigits 10 n) = n := by
  rw [digitsValue_eq_ofDigitChars fun c hc => Nat.isDigit_of_mem_toDigits (by decide) (by decide) hc,
    Nat.ofDigitChars_ten_toDigits]

end Text

namespace TakeNumber

/-- The text of a whole number is a minus if it is below zero, and its digits. -/
theorem exists_sign_toString (n : Int) : ∃ sign : Sign,
    sign.chars ++ Nat.toDigits 10 n.natAbs = (toString n).toList ∧ sign.apply n.natAbs = n := by
  cases n with
  | ofNat m =>
      refine ⟨.absent, ?_, rfl⟩
      rw [Int.toString_eq_repr, Int.repr, Nat.toList_repr]
      rfl
  | negSucc m =>
      refine ⟨.minus, ?_, rfl⟩
      rw [Int.toString_eq_repr, Int.repr, String.toList_append, Nat.toList_repr]
      rfl

/-- The text of a whole number reads as that number, unless it has too many digits. -/
theorem parse?_toString (n : Int) :
    parse? (toString n) =
      if digitLimit < (Nat.toDigits 10 n.natAbs).length then
        .error (.tooManyDigits (Nat.toDigits 10 n.natAbs).length)
      else .ok (some n) := by
  obtain ⟨sign, htext, hn⟩ := exists_sign_toString n
  have hdigits : ∀ c ∈ Nat.toDigits 10 n.natAbs, c.isDigit = true :=
    fun c hc => Nat.isDigit_of_mem_toDigits (by decide) (by decide) hc
  -- Nothing stands around the sign and the digits.
  let parts : Leading (toString n).toList := {
    blanks := []
    sign := sign
    digits := Nat.toDigits 10 n.natAbs
    rest := []
    joined := by rw [List.nil_append, List.append_nil, htext]
    blank := fun _ hc => absurd hc List.not_mem_nil
    digit := fun c hc => Text.isDigit_of_isDigit (hdigits c hc)
    ne_nil := Nat.toDigits_ne_nil
    stop := fun _ hc => nomatch hc }
  have hvalue : parts.value = n := by
    rw [parts.value_eq, Text.digitsValue_toDigits, hn]
  rw [parse?_of_leading parts, hvalue]

end TakeNumber

namespace Items

/-! ## Filling from the first item on -/

def consecutive (n : Int) (items : List Item) : List Item :=
  items.mapIdx fun p i => { i with num := toString (n + p) }

theorem consecutive_cons (n : Int) (i : Item) (rest : List Item) :
    consecutive n (i :: rest) = { i with num := toString n } :: consecutive (n + 1) rest := by
  have hnext : ∀ p : Nat, n + ((p + 1 : Nat) : Int) = n + 1 + p := by
    intro p
    omega
  rw [consecutive, consecutive, List.mapIdx_cons]
  simp only [hnext, Int.natCast_zero, Int.add_zero]

theorem numbered_ok {n : Int} {items items' : List Item}
    (h : numbered n items = (items', .ok ())) : items' = consecutive n items := by
  induction items generalizing n items' with
  | nil =>
      cases h
      rfl
  | cons i rest ih =>
      unfold numbered at h
      cases hnum : Number.writeWhole n with
      | error e =>
          rw [hnum] at h
          cases h
      | ok num =>
          have htext : num = toString n := by
            unfold Number.writeWhole at hnum
            split at hnum
            · cases hnum
            · exact (Except.ok.inj hnum).symm
          rcases hrest : numbered (n + 1) rest with ⟨later, result⟩
          rw [hnum] at h
          simp only [hrest] at h
          obtain ⟨rfl, rfl⟩ := Prod.mk.inj h
          rw [consecutive_cons, ih hrest, htext]

/-- A scene that is given to the first item and filled from there is the scene of all. -/
theorem fillScene_setScene (items : List Item) (scene : Json) :
    fillScene (items.modify 0 fun i => { i with scene }) 0 =
      items.map fun i => { i with scene } := by
  cases items with
  | nil => rfl
  | cons i rest => rfl

/-- A number that is given to the first item and filled from there numbers all consecutively. -/
theorem fillNum_setNum {items items' : List Item} {n : Int}
    (h : fillNum (items.modify 0 fun i => { i with num := toString n }) 0 = (items', .ok ())) :
    items' = consecutive n items := by
  cases items with
  | nil =>
      cases h
      rfl
  | cons i rest =>
      let first : Item := { i with num := toString n }
      have hfirst : (i :: rest).modify 0 (fun i => { i with num := toString n }) =
          first :: rest := rfl
      have hat : at? (first :: rest) 0 = some (first, 1) := rfl
      have hnum : first.num = toString n := rfl
      rw [hfirst] at h
      unfold fillNum at h
      simp only [hat, hnum, TakeNumber.parse?_toString] at h
      by_cases hlong : digitLimit < (Nat.toDigits 10 n.natAbs).length
      · rw [if_pos hlong] at h
        cases h
      · rcases hrest : numbered (n + 1) rest with ⟨later, result⟩
        rw [if_neg hlong] at h
        simp only [List.drop_one, List.tail_cons, hrest] at h
        obtain ⟨rfl, rfl⟩ := Prod.mk.inj h
        rw [consecutive_cons, numbered_ok hrest]
        rfl

end Items

end CardImport
