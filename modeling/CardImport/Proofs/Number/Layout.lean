import CardImport.Json.Parser
import CardImport.Proofs.Number.Shortest
import CardImport.Proofs.Numbering
import CardImport.Proofs.Span

/-!
# Numbers that are read where they were written

The digits of a number are read up to what may follow a value. A binary number that was written
with its fewest digits, in either layout, is read as the same number, since the digits and the
exponent that are read have the value of the decimal that was written.
-/

namespace CardImport

/-! ## Runs of digits -/

theorem ofDigitChars_lt {cs : List Char} (h : ∀ c ∈ cs, c.isDigit = true) :
    Nat.ofDigitChars 10 cs 0 < 10 ^ cs.length := by
  induction cs using List.reverseRecOn with
  | nil => exact Nat.one_pos
  | append_singleton cs c ih =>
      have hlast := toNat_of_isDigit (h c (List.mem_append_right _ List.mem_cons_self))
      have hfront := ih fun d hd => h d (List.mem_append_left _ hd)
      rw [Nat.ofDigitChars_append, Nat.ofDigitChars_cons, Nat.ofDigitChars_nil, List.length_append,
        List.length_singleton, Nat.pow_succ]
      have hzero : '0'.toNat = 48 := rfl
      omega

theorem isDigit_of_mem_toDigits {n : ℕ} {c : Char} (h : c ∈ Nat.toDigits 10 n) :
    c.isDigit = true :=
  Nat.isDigit_of_mem_toDigits (by decide) (by decide) h

/-- The digits of a number other than zero do not begin with a zero. -/
theorem head?_toDigits_ne {n : ℕ} (h : n ≠ 0) : (Nat.toDigits 10 n).head? ≠ some '0' := by
  induction n using Nat.strongRecOn with
  | ind n ih =>
      rw [Nat.toDigits_eq_if (by decide)]
      split
      · rename_i hless
        have hall : ∀ k < 10, k ≠ 0 → [Nat.digitChar k].head? ≠ some '0' := by decide
        exact hall n hless h
      · rename_i hmore
        rw [List.head?_append_of_ne_nil _ Nat.toDigits_ne_nil]
        exact ih (n / 10) (by omega) (by omega)

namespace Json

/-- What may follow a value in a written text. -/
def Ended (rest : List Char) : Prop := ∀ c ∈ rest.head?, c ∈ [',', '\n', ']', '\x7d']

theorem Ended.head_ne {rest : List Char} (h : Ended rest) {c : Char} {cs : List Char}
    (hc : c ∉ [',', '\n', ']', '\x7d']) : rest ≠ c :: cs := by
  rintro rfl
  exact hc (h c rfl)

theorem isAsciiDigit_of_isDigit {c : Char} (h : c.isDigit = true) : isAsciiDigit c = true := by
  have hc := toNat_of_isDigit h
  simp only [isAsciiDigit, Bool.and_eq_true, decide_eq_true_eq]
  exact hc

theorem isDigit_of_isAsciiDigit {c : Char} (h : isAsciiDigit c = true) : c.isDigit = true := by
  simp only [isAsciiDigit, Bool.and_eq_true, decide_eq_true_eq] at h
  simp only [Char.isDigit, Bool.and_eq_true, decide_eq_true_eq]
  exact h

/-- What a run of digits stops at. -/
def NoDigit (rest : List Char) : Prop := ∀ c ∈ rest.head?, isAsciiDigit c = false

theorem noDigit_cons {c : Char} {rest : List Char} (h : isAsciiDigit c = false) :
    NoDigit (c :: rest) := by
  rintro _ ⟨⟩
  exact h

theorem Ended.noDigit {rest : List Char} (h : Ended rest) : NoDigit rest := by
  intro c hc
  have hall : ∀ c ∈ [',', '\n', ']', '\x7d'], isAsciiDigit c = false := by simp [isAsciiDigit]
  exact hall c (h c hc)

variable {digits rest : List Char}

theorem digitRun_append (hdigits : ∀ c ∈ digits, c.isDigit = true) (hrest : NoDigit rest) :
    digitRun (digits ++ rest) = (digits, rest) := by
  have hall : ∀ c ∈ digits, isAsciiDigit c = true :=
    fun c hc => isAsciiDigit_of_isDigit (hdigits c hc)
  obtain ⟨htake, hdrop⟩ := span_of_stop hall hrest
  rw [digitRun, htake, hdrop]

/-- Digits before a point or exponent: a zero alone, or no zero at their head. -/
structure Whole (digits : List Char) : Prop where
  isDigit : ∀ c ∈ digits, c.isDigit = true
  ne_nil : digits ≠ []
  lead : digits = ['0'] ∨ digits.head? ≠ some '0'

theorem isDigit_zero : ∀ c ∈ ['0'], c.isDigit = true :=
  List.forall_mem_singleton.mpr rfl

theorem whole_zero : Whole ['0'] := ⟨isDigit_zero, List.cons_ne_nil _ _, Or.inl rfl⟩

theorem whole_toDigits (n : ℕ) : Whole (Nat.toDigits 10 n) where
  isDigit := fun _ => isDigit_of_mem_toDigits
  ne_nil := Nat.toDigits_ne_nil
  lead := by
    rcases Nat.eq_zero_or_pos n with rfl | hn
    · exact Or.inl (Nat.toDigits_zero 10)
    · exact Or.inr (head?_toDigits_ne hn.ne')

theorem wholeRun_append (h : Whole digits) (hrest : NoDigit rest) :
    wholeRun (digits ++ rest) = (digits, rest) := by
  rcases h.lead with rfl | hlead
  · rfl
  · rw [wholeRun.eq_2, digitRun_append h.isDigit hrest]
    rintro tail heq
    cases digits with
    | nil => exact h.ne_nil rfl
    | cons c cs =>
        obtain ⟨rfl, -⟩ := List.cons.inj heq
        exact hlead rfl

theorem fractionRun_append (hdigits : ∀ c ∈ digits, c.isDigit = true) (hsome : digits ≠ [])
    (hrest : NoDigit rest) : fractionRun ('.' :: (digits ++ rest)) = (digits, rest) := by
  cases digits with
  | nil => exact absurd rfl hsome
  | cons c cs =>
      rw [List.cons_append, fractionRun, if_pos (isAsciiDigit_of_isDigit
        (hdigits c List.mem_cons_self)), ← List.cons_append]
      exact digitRun_append hdigits hrest

theorem fractionRun_of_ne (h : ∀ cs, rest ≠ '.' :: cs) : fractionRun rest = ([], rest) := by
  unfold fractionRun
  split
  · exact absurd rfl (h _)
  · rfl

theorem exponentRun?_of_ended (h : Ended rest) : exponentRun? rest = none := by
  cases rest with
  | nil => rfl
  | cons c rest =>
      have hall : ∀ c ∈ [',', '\n', ']', '\x7d'], ¬(c = 'e' ∨ c = 'E') := by simp
      exact if_neg (hall c (h c rfl))

theorem exponentRun?_append (power : ℤ) (hrest : NoDigit rest) :
    exponentRun? ('e' :: (if power < 0 then '-' else '+') ::
      ((if (Nat.toDigits 10 power.natAbs).length < 2 then '0' :: Nat.toDigits 10 power.natAbs
        else Nat.toDigits 10 power.natAbs) ++ rest)) = some (power, rest) := by
  generalize hpadded : (if (Nat.toDigits 10 power.natAbs).length < 2 then
    '0' :: Nat.toDigits 10 power.natAbs else Nat.toDigits 10 power.natAbs) = digits
  -- A zero in front changes neither the value nor that there are only digits.
  have hdigits : (∀ c ∈ digits, c.isDigit = true) ∧ digits ≠ [] ∧
      Nat.ofDigitChars 10 digits 0 = power.natAbs := by
    subst hpadded
    split
    · refine ⟨fun c hc => ?_, by simp, ?_⟩
      · rcases List.mem_cons.mp hc with rfl | hc
        · rfl
        · exact isDigit_of_mem_toDigits hc
      · rw [Nat.ofDigitChars_cons]
        exact Nat.ofDigitChars_ten_toDigits
    · exact ⟨fun _ => isDigit_of_mem_toDigits, Nat.toDigits_ne_nil, Nat.ofDigitChars_ten_toDigits⟩
  obtain ⟨hall, hsome, hvalue⟩ := hdigits
  have hsign : Number.splitSign ((if power < 0 then '-' else '+') :: (digits ++ rest)) =
      (decide (power < 0), digits ++ rest) := by
    by_cases h : power < 0
    · rw [if_pos h, decide_eq_true h]; rfl
    · rw [if_neg h, decide_eq_false h]; rfl
  rw [exponentRun?, if_pos (Or.inl rfl), hsign]
  dsimp only
  rw [digitRun_append hall hrest]
  dsimp only
  rw [if_neg (by rwa [List.isEmpty_iff]), hvalue]
  by_cases h : power < 0
  · rw [if_pos (decide_eq_true h), Int.ofNat_natAbs_of_nonpos h.le, neg_neg]
  · rw [if_neg (by simpa using h), Int.natAbs_of_nonneg (not_lt.mp h)]

/-! ## Reading a number without sign -/

theorem readUnsigned_whole {negative : Bool} (h : Whole digits) (hlimit : digits.length ≤ digitLimit)
    (hrest : Ended rest) :
    readUnsigned negative (digits ++ rest) = .ok (.int (if negative then
      -(Nat.ofDigitChars 10 digits 0 : ℤ) else Nat.ofDigitChars 10 digits 0), rest) := by
  have hpoint : ∀ cs, rest ≠ '.' :: cs := fun _ => hrest.head_ne (by decide)
  rw [readUnsigned, wholeRun_append h hrest.noDigit]
  dsimp only
  rw [fractionRun_of_ne hpoint]
  dsimp only
  rw [if_neg (by rw [List.isEmpty_iff]; exact h.ne_nil), exponentRun?_of_ended hrest]
  dsimp only
  rw [if_neg (by decide), if_neg (Nat.not_lt.mpr hlimit), List.append_nil]

theorem readUnsigned_point {negative : Bool} {part : List Char} (h : Whole digits)
    (hpart : ∀ c ∈ part, c.isDigit = true) (hsome : part ≠ []) (hrest : Ended rest) :
    readUnsigned negative (digits ++ '.' :: (part ++ rest)) = .ok (.float (Binary64.ofScientific
      negative (Nat.ofDigitChars 10 (digits ++ part) 0) (digits ++ part).length (-part.length)),
      rest) := by
  rw [readUnsigned, wholeRun_append h (noDigit_cons (by decide))]
  dsimp only
  rw [fractionRun_append hpart hsome hrest.noDigit]
  dsimp only
  rw [if_neg (by rw [List.isEmpty_iff]; exact h.ne_nil), exponentRun?_of_ended hrest]
  dsimp only
  rw [if_pos (by simpa using hsome)]

/-- Digits with an exponent behind them, and with a point after the first if there are more. -/
theorem readUnsigned_exponential {negative : Bool} {first : Char} {part : List Char} (power : ℤ)
    (hdigits : ∀ c ∈ first :: part, c.isDigit = true) (hrest : Ended rest) :
    readUnsigned negative (Binary64.exponential (first :: part) power ++ rest) =
      .ok (.float (Binary64.ofScientific negative (Nat.ofDigitChars 10 (first :: part) 0)
        (first :: part).length (power - part.length)), rest) := by
  -- The first digit stands alone before the point or the exponent, so it may be a zero.
  have hwhole : ∀ c cs, isAsciiDigit c = false →
      wholeRun (first :: c :: cs) = ([first], c :: cs) := by
    intro c cs hc
    have hfirst : Whole [first] := by
      refine ⟨fun d hd => hdigits d (List.mem_cons.mpr (Or.inl (List.mem_singleton.mp hd))),
        by simp, ?_⟩
      by_cases h : first = '0'
      · exact Or.inl (by rw [h])
      · exact Or.inr (by simpa using h)
    exact wholeRun_append hfirst (noDigit_cons hc)
  have hexponent := exponentRun?_append power hrest.noDigit
  unfold Binary64.exponential
  dsimp only
  rw [List.append_assoc, List.cons_append, List.cons_append]
  generalize (if power < 0 then '-' else '+') :: _ = after at hexponent ⊢
  cases part with
  | nil =>
      rw [List.cons_append, List.nil_append, readUnsigned, hwhole _ _ (by decide)]
      dsimp only
      rw [fractionRun_of_ne (by simp)]
      dsimp only
      rw [if_neg (by simp), hexponent]
      rfl
  | cons c cs =>
      rw [List.cons_append, List.cons_append, readUnsigned, hwhole _ _ (by decide)]
      dsimp only
      rw [fractionRun_append (fun d hd => hdigits d (List.mem_cons_of_mem _ hd)) (by simp)
        (noDigit_cons (by decide))]
      dsimp only
      rw [if_neg (by simp), hexponent]
      rfl

end Json

namespace Binary64

open Json

variable {negative sign : Bool} {m : ℕ} {e : ℤ} {canonical : Canonical m e} {rest : List Char}

/-! ## Digits and exponents that are read -/

theorem ten_zpow_lt_of_lt {a b : ℤ} {q : ℚ} (low : (10 : ℚ) ^ a ≤ q) (high : q < 10 ^ b) : a < b :=
  (zpow_lt_zpow_iff_right₀ (by norm_num)).mp (low.trans_lt high)

theorem two_zpow_lt_cut : (2 : ℚ) ^ (1024 : ℤ) < 10 ^ (400 : ℤ) := by
  have h : 2 ^ 1024 < 10 ^ 400 := by decide +kernel
  exact_mod_cast h

theorem cut_le_two_zpow : (10 : ℚ) ^ (-400 : ℤ) ≤ 2 ^ (-1075 : ℤ) := by
  have h : 2 ^ 1075 ≤ 10 ^ 400 := by decide +kernel
  rw [zpow_neg, zpow_neg]
  exact inv_anti₀ (by positivity) (by exact_mod_cast h)

theorem digits_ne_zero {d : Decimal} (hm : m ≠ 0)
    (h : ofDecimal negative d = finite sign m e canonical) : d.digits ≠ 0 := by
  intro hzero
  have hlow := (bounds_of_ofDecimal_eq_finite hm h).1
  rw [Decimal.value, hzero, Nat.cast_zero, zero_mul] at hlow
  exact absurd hlow (not_le.mpr (by positivity))

/-- The cuts for large and small exponents leave out nothing that is rounded to a finite number
other than zero. -/
theorem ofScientific_eq_ofDecimal {v count : ℕ} {exponent : ℤ} (hm : m ≠ 0) (hcount : v < 10 ^ count)
    (h : ofDecimal negative ⟨v, exponent⟩ = finite sign m e canonical) :
    ofScientific negative v count exponent = ofDecimal negative ⟨v, exponent⟩ := by
  have hv : v ≠ 0 := digits_ne_zero hm h
  obtain ⟨hlow, hhigh⟩ := bounds_of_ofDecimal_eq_finite hm h
  rw [Decimal.value] at hlow hhigh
  have hsize : (10 : ℚ) ^ ((Nat.toDigits 10 v).length - 1 : ℤ) ≤ v := by
    have hpos : 0 < (Nat.toDigits 10 v).length := Nat.length_toDigits_pos
    rcases Nat.eq_or_lt_of_le hpos with hone | hmore
    · rw [← hone, Nat.cast_one, sub_self, zpow_zero]
      exact_mod_cast Nat.pos_of_ne_zero hv
    · have hle : 10 ^ ((Nat.toDigits 10 v).length - 1) ≤ v := by
        by_contra hless
        have := (Nat.length_toDigits_le_iff (by decide) (by omega)).mpr (not_le.mp hless)
        omega
      rw [show ((Nat.toDigits 10 v).length - 1 : ℤ) = ((Nat.toDigits 10 v).length - 1 : ℕ) by omega,
        zpow_natCast]
      exact_mod_cast hle
  -- The value lies between the powers of ten at which reading gives up early.
  have hlargest : (Nat.toDigits 10 v).length + exponent ≤ 400 := by
    have hle : (10 : ℚ) ^ ((Nat.toDigits 10 v).length - 1 + exponent : ℤ) ≤ v * 10 ^ exponent := by
      rw [zpow_add₀ (by norm_num)]
      exact mul_le_mul_of_nonneg_right hsize (by positivity)
    have hlt := ten_zpow_lt_of_lt hle (hhigh.trans two_zpow_lt_cut)
    omega
  have hsmallest : -400 ≤ count + exponent := by
    have hlt : (v : ℚ) * 10 ^ exponent < 10 ^ (count + exponent : ℤ) := by
      rw [zpow_add₀ (by norm_num), zpow_natCast]
      exact mul_lt_mul_of_pos_right (by exact_mod_cast hcount) (by positivity)
    have := ten_zpow_lt_of_lt (cut_le_two_zpow.trans hlow) hlt
    omega
  rw [ofScientific, if_neg hv, if_neg (by omega), if_neg (by omega)]

/-- Digits and an exponent of the same value are read as the same number. -/
theorem ofScientific_of_value {d : Decimal} {v count : ℕ} {exponent : ℤ} (hm : m ≠ 0)
    (h : ofDecimal negative d = finite sign m e canonical) (hcount : v < 10 ^ count)
    (hvalue : Decimal.value ⟨v, exponent⟩ = d.value) :
    ofScientific negative v count exponent = ofDecimal negative d := by
  rw [← ofDecimal_congr hvalue] at h ⊢
  exact ofScientific_eq_ofDecimal hm hcount h

/-! ## The two layouts -/

theorem value_eq_of_digits {v k : ℕ} {exponent : ℤ} {d : Decimal} (hv : v = 10 ^ k * d.digits)
    (h : exponent + k = d.exponent) : Decimal.value ⟨v, exponent⟩ = d.value := by
  rw [Decimal.value, Decimal.value, hv, ← h, zpow_add₀ (by norm_num), zpow_natCast]
  push_cast
  ring

theorem isDigit_of_mem_zeros {n : ℕ} {c : Char} (h : c ∈ zeros n) : c.isDigit = true := by
  rw [List.eq_of_mem_replicate h]
  rfl

/-- The digits before and behind a point, if without it they are those of `n` and some zeros, and
the point stands where the exponent puts it. -/
structure Pointed (n : ℕ) (exponent : ℤ) (front part : List Char) : Prop where
  whole : Whole front
  isDigit : ∀ c ∈ part, c.isDigit = true
  ne_nil : part ≠ []
  value : ∃ k : ℕ, Nat.ofDigitChars 10 (front ++ part) 0 = 10 ^ k * n ∧
    -(part.length : ℤ) + k = exponent

/-- What is read of digits with a point among them. -/
theorem Pointed.readUnsigned {d : Decimal} {front part : List Char}
    (hd : Pointed d.digits d.exponent front part) (hm : m ≠ 0)
    (h : ofDecimal negative d = finite sign m e canonical) (hrest : Ended rest) :
    Json.readUnsigned negative (front ++ '.' :: (part ++ rest)) =
      .ok (.float (ofDecimal negative d), rest) := by
  obtain ⟨k, hvalue, hexponent⟩ := hd.value
  rw [readUnsigned_point hd.whole hd.isDigit hd.ne_nil hrest, ofScientific_of_value hm h
    (ofDigitChars_lt fun c hc =>
      (List.mem_append.mp hc).elim (hd.whole.isDigit c) (hd.isDigit c))
    (value_eq_of_digits hvalue hexponent)]

section

variable {n : ℕ} {exponent : ℤ}

/-- Before the point stands a zero alone. -/
theorem pointed_below (zs : ℕ) (h : (Nat.toDigits 10 n).length + exponent = -zs) :
    Pointed n exponent ['0'] (zeros zs ++ Nat.toDigits 10 n) where
  whole := whole_zero
  isDigit := fun _ hc => (List.mem_append.mp hc).elim isDigit_of_mem_zeros isDigit_of_mem_toDigits
  ne_nil := List.append_ne_nil_of_right_ne_nil _ Nat.toDigits_ne_nil
  value := by
    refine ⟨0, ?_, ?_⟩
    · have hzeros : ['0'] ++ (zeros zs ++ Nat.toDigits 10 n) =
          List.replicate (zs + 1) '0' ++ Nat.toDigits 10 n := rfl
      rw [hzeros, Nat.ofDigitChars_append, Nat.ofDigitChars_replicate_zero, Nat.mul_zero,
        Nat.ofDigitChars_ten_toDigits, Nat.pow_zero, Nat.one_mul]
    · rw [List.length_append, zeros, List.length_replicate]
      push_cast
      omega

/-- All digits stand before the point. -/
theorem pointed_above (hn : n ≠ 0) (zs : ℕ) (h : exponent = zs) :
    Pointed n exponent (Nat.toDigits 10 n ++ zeros zs) ['0'] where
  whole :=
    ⟨fun _ hc => (List.mem_append.mp hc).elim isDigit_of_mem_toDigits isDigit_of_mem_zeros,
      List.append_ne_nil_of_left_ne_nil Nat.toDigits_ne_nil _,
      Or.inr (by
        rw [List.head?_append_of_ne_nil _ Nat.toDigits_ne_nil]
        exact head?_toDigits_ne hn)⟩
  isDigit := isDigit_zero
  ne_nil := whole_zero.ne_nil
  value := by
    refine ⟨zs + 1, ?_, ?_⟩
    · rw [List.append_assoc, zeros, ← List.replicate_succ', Nat.ofDigitChars_append,
        Nat.ofDigitChars_replicate_zero, Nat.ofDigitChars_ten_toDigits]
    · rw [List.length_singleton]
      push_cast
      omega

/-- The point stands among the digits. -/
theorem pointed_among (hn : n ≠ 0) {point : ℕ} (hpoint : point ≠ 0)
    (hless : point < (Nat.toDigits 10 n).length)
    (h : (Nat.toDigits 10 n).length + exponent = point) :
    Pointed n exponent ((Nat.toDigits 10 n).take point) ((Nat.toDigits 10 n).drop point) where
  whole :=
    ⟨fun _ hc => isDigit_of_mem_toDigits (List.mem_of_mem_take hc),
      fun hnil => (List.take_eq_nil_iff.mp hnil).elim hpoint Nat.toDigits_ne_nil,
      Or.inr (by
        rw [List.head?_take, if_neg hpoint]
        exact head?_toDigits_ne hn)⟩
  isDigit := fun _ hc => isDigit_of_mem_toDigits (List.mem_of_mem_drop hc)
  ne_nil := fun hnil => Nat.not_le.mpr hless (List.drop_eq_nil_iff.mp hnil)
  value := by
    refine ⟨0, ?_, ?_⟩
    · rw [List.take_append_drop, Nat.ofDigitChars_ten_toDigits, Nat.pow_zero, Nat.one_mul]
    · rw [List.length_drop]
      push_cast
      omega

/-- The positional form has a point where the exponent puts it. -/
theorem exists_pointed (hn : n ≠ 0) : ∃ front part, Pointed n exponent front part ∧
    positional (Nat.toDigits 10 n) ((Nat.toDigits 10 n).length + exponent) =
      front ++ '.' :: part := by
  generalize hpoint : ((Nat.toDigits 10 n).length + exponent : ℤ) = point
  unfold positional
  split
  · rename_i k
    exact ⟨_, _, pointed_below (k + 1) hpoint, rfl⟩
  · exact ⟨_, _, pointed_below 0 hpoint, rfl⟩
  · rename_i k hk
    rw [Int.ofNat_eq_natCast] at hpoint
    split
    · rename_i hlong
      refine ⟨_, _, pointed_above hn _ (by push_cast [hlong]; omega), rfl⟩
    · rename_i hshort
      exact ⟨_, _, pointed_among hn (fun h => hk (by rw [h])) (Nat.lt_of_not_le hshort) hpoint, rfl⟩

end

theorem readUnsigned_positional {d : Decimal} (hm : m ≠ 0)
    (h : ofDecimal negative d = finite sign m e canonical) (hrest : Ended rest) :
    readUnsigned negative (positional (Nat.toDigits 10 d.digits)
      ((Nat.toDigits 10 d.digits).length + d.exponent) ++ rest) =
      .ok (.float (ofDecimal negative d), rest) := by
  obtain ⟨front, part, hpointed, htext⟩ := exists_pointed (digits_ne_zero hm h)
  rw [htext, List.append_assoc, List.cons_append]
  exact hpointed.readUnsigned hm h hrest

/-- A decimal that is rounded to a finite number other than zero is read as that number. -/
theorem readUnsigned_layout {d : Decimal} (hm : m ≠ 0)
    (h : ofDecimal negative d = finite sign m e canonical) (hrest : Ended rest) :
    readUnsigned negative (layout d ++ rest) = .ok (.float (ofDecimal negative d), rest) := by
  unfold layout
  dsimp only
  split
  · rw [Int.sub_add_cancel]
    exact readUnsigned_positional hm h hrest
  · have hdigits : ∀ c ∈ Nat.toDigits 10 d.digits, c.isDigit = true :=
      fun _ => isDigit_of_mem_toDigits
    have hvalue := Nat.ofDigitChars_ten_toDigits (n := d.digits)
    cases hsplit : Nat.toDigits 10 d.digits with
    | nil => exact absurd hsplit Nat.toDigits_ne_nil
    | cons first part =>
        rw [hsplit] at hdigits hvalue
        rw [readUnsigned_exponential _ hdigits hrest, ofScientific_of_value hm h
          (ofDigitChars_lt hdigits) (value_eq_of_digits (k := 0) ?_ ?_)]
        · rw [hvalue, Nat.pow_zero, Nat.one_mul]
        · rw [List.length_cons]
          push_cast
          omega

theorem readUnsigned_shortest (negative : Bool) (canonical : Canonical m e) (hrest : Ended rest) :
    readUnsigned negative (layout (shortest (finite negative m e canonical)) ++ rest) =
      .ok (.float (finite negative m e canonical), rest) := by
  rcases Nat.eq_zero_or_pos m with rfl | hm
  · have hexponent : e = -1074 := canonical.2.2.2.resolve_right (Nat.not_le.mpr (twoTo_pos 52))
    subst hexponent
    have hratio : (finite negative 0 (-1074) canonical).ratio.1 = 0 := rfl
    have hshortest : shortest (finite negative 0 (-1074) canonical) = ⟨0, 0⟩ := by
      unfold shortest
      dsimp only
      rw [if_pos hratio]
    have hlayout : layout ⟨0, 0⟩ ++ rest = ['0'] ++ '.' :: (['0'] ++ rest) := rfl
    rw [hshortest, hlayout, readUnsigned_point whole_zero isDigit_zero whole_zero.ne_nil hrest]
    have hread : ofScientific negative (Nat.ofDigitChars 10 (['0'] ++ ['0']) 0)
        (['0'] ++ ['0']).length (-['0'].length) = finite negative 0 (-1074) canonical :=
      ofParts_eq canonical
    rw [hread]
  · have hreads := @ofDecimal_shortest negative m e hm.ne' canonical
    rw [readUnsigned_layout hm.ne' hreads hrest, hreads]

theorem exists_digit_of_layout (d : Decimal) :
    ∃ c cs, layout d = c :: cs ∧ c.isDigit = true := by
  have hdigits : ∀ c ∈ Nat.toDigits 10 d.digits, c.isDigit = true :=
    fun _ => isDigit_of_mem_toDigits
  unfold layout
  cases hsplit : Nat.toDigits 10 d.digits with
  | nil => exact absurd hsplit Nat.toDigits_ne_nil
  | cons first part =>
      have hfirst : first.isDigit = true := hdigits first (hsplit ▸ List.mem_cons_self)
      dsimp only
      split
      · unfold positional
        split
        · exact ⟨_, _, rfl, rfl⟩
        · exact ⟨_, _, rfl, rfl⟩
        · rename_i n hn _
          split
          · exact ⟨first, _, rfl, hfirst⟩
          · cases n with
            | zero => exact absurd rfl hn
            | succ n => exact ⟨first, _, rfl, hfirst⟩
      · unfold exponential
        cases part with
        | nil => exact ⟨first, _, rfl, hfirst⟩
        | cons c cs => exact ⟨first, _, rfl, hfirst⟩

end Binary64

end CardImport
