import CardImport.Proofs.Span
import CardImport.Proofs.Timestamp.Spelling
import Mathlib.Logic.Relation

/-!
# Written timestamps are read back

A timestamp that is written is read as itself, part by part: the date, the time of day with its
fraction, and the offset with or without seconds. An offset that is less than a second is read as
zero. What the server sends as no time at all is the year 1.
-/

namespace CardImport.Timestamp

/-! ## Digits -/

theorem asciiDigit?_digitChar {n : Nat} (h : n < 10) : asciiDigit? (Nat.digitChar n) = some n := by
  have hall : ∀ n < 10, asciiDigit? (Nat.digitChar n) = some n := by decide
  exact hall n h

theorem isDigit_digitChar {n : Nat} (h : n < 10) : (Nat.digitChar n).isDigit = true := by
  have hall : ∀ n < 10, (Nat.digitChar n).isDigit = true := by decide
  exact hall n h

theorem length_padded (width n : Nat) : (padded width n).length = width := by
  induction width generalizing n with
  | zero => rfl
  | succ width ih => rw [padded, List.length_append, ih, List.length_singleton]

theorem isDigit_of_mem_padded {width n : Nat} {c : Char} (h : c ∈ padded width n) :
    c.isDigit = true := by
  induction width generalizing n with
  | zero => cases h
  | succ width ih =>
      rcases List.mem_append.mp h with h | h
      · exact ih h
      · rw [List.mem_singleton.mp h]
        exact isDigit_digitChar (Nat.mod_lt n (by decide))

theorem takeDigits_succ (width acc : Nat) (cs : List Char) :
    takeDigits (width + 1) acc cs =
      (takeDigits width acc cs).bind fun (n, rest) => takeDigits 1 n rest := by
  induction width generalizing acc cs with
  | zero => rfl
  | succ width ih =>
      cases cs with
      | nil => rfl
      | cons c rest =>
          rw [takeDigits, takeDigits]
          cases asciiDigit? c with
          | none => rfl
          | some d => exact ih _ _

theorem tenTo_succ (width : Nat) : tenTo (width + 1) = 10 * tenTo width :=
  Nat.mul_comm (tenTo width) 10

theorem takeDigits_padded (width acc n : Nat) (rest : List Char) :
    takeDigits width acc (padded width n ++ rest) =
      some (acc * tenTo width + n % tenTo width, rest) := by
  induction width generalizing n rest with
  | zero =>
      show some (acc, rest) = some (acc * 1 + n % 1, rest)
      rw [Nat.mul_one, Nat.mod_one, Nat.add_zero]
  | succ width ih =>
      have hsplit : n % tenTo (width + 1) = n / 10 % tenTo width * 10 + n % 10 := by
        rw [tenTo_succ, Nat.mod_mul, Nat.add_comm, Nat.mul_comm]
      rw [takeDigits_succ, padded, List.append_assoc, ih]
      show takeDigits 1 _ (Nat.digitChar (n % 10) :: rest) = _
      rw [takeDigits, asciiDigit?_digitChar (Nat.mod_lt n (by decide))]
      show some _ = some _
      rw [hsplit, tenTo_succ, Nat.mul_comm 10, Nat.add_mul, Nat.mul_assoc, Nat.add_assoc]

theorem takeDigits_fitting (width : Nat) {n : Nat} (h : n < tenTo width) (rest : List Char) :
    takeDigits width 0 (padded width n ++ rest) = some (n, rest) := by
  rw [takeDigits_padded, Nat.zero_mul, Nat.zero_add, Nat.mod_eq_of_lt h]

/-! ## Times of day -/

theorem readFraction?_written {n : Nat} (h : n < 1000000) :
    readFraction? (padded 6 n) = some (n, false) := by
  have hread : takeDigits 6 0 (padded 6 n) = some (n, []) := by
    have hfits := takeDigits_fitting 6 h []
    rwa [List.append_nil] at hfits
  simp only [readFraction?, length_padded, Nat.min_self, hread]
  show some (n * 1, false) = _
  rw [Nat.mul_one]

theorem padded_succ_ne_nil (width n : Nat) : padded (width + 1) n ≠ [] := by
  simp [padded]

theorem following?_colon {cs : List Char} (h : cs ≠ []) :
    following? none (':' :: cs) = some (true, .digits cs) ∧
      following? (some true) (':' :: cs) = some (true, .digits cs) := by
  cases cs with
  | nil => exact absurd rfl h
  | cons c rest => exact ⟨rfl, rfl⟩

theorem following?_point {cs : List Char} (h : cs ≠ []) :
    following? (some true) ('.' :: cs) = some (true, .fraction cs) := by
  cases cs with
  | nil => exact absurd rfl h
  | cons c rest => rfl

theorem readClock?_minutes {hour minute : Nat} (hhour : hour < 100) (hminute : minute < 100) :
    readClock? (padded 2 hour ++ ':' :: padded 2 minute) = some ({ hour, minute }, false) := by
  have hread : takeDigits 2 0 (padded 2 minute) = some (minute, []) := by
    have hfits := takeDigits_fitting 2 hminute []
    rwa [List.append_nil] at hfits
  simp only [readClock?, takeDigits_fitting 2 hhour, Option.bind_eq_bind,
    Option.bind_some, (following?_colon (padded_succ_ne_nil 1 minute)).1, hread]
  rfl

theorem readClock?_written {hour minute second microsecond : Nat} (hhour : hour < 100)
    (hminute : minute < 100) (hsecond : second < 100) (hmicrosecond : microsecond < 1000000) :
    readClock? (clockChars hour minute second ++ fractionChars microsecond) =
      some ({ hour, minute, second, microsecond }, false) := by
  have hseconds : ∀ rest, padded 2 second ++ rest ≠ [] :=
    fun rest => List.append_ne_nil_of_left_ne_nil (padded_succ_ne_nil 1 second) rest
  have hminutes : ∀ rest, padded 2 minute ++ rest ≠ [] :=
    fun rest => List.append_ne_nil_of_left_ne_nil (padded_succ_ne_nil 1 minute) rest
  simp only [clockChars, List.append_assoc, List.cons_append, readClock?,
    takeDigits_fitting 2 hhour, takeDigits_fitting 2 hminute,
    takeDigits_fitting 2 hsecond, Option.bind_eq_bind, Option.bind_some,
    (following?_colon (hminutes _)).1, (following?_colon (hseconds _)).2]
  by_cases hnone : microsecond = 0
  · subst hnone
    rfl
  · simp only [fractionChars, if_neg hnone, following?_point (padded_succ_ne_nil 5 microsecond),
      Option.bind_some, readFraction?_written hmicrosecond]
    rfl

/-! ## Offsets -/

def readableOffset (z : Int) : Int := if z.natAbs < 1000000 then 0 else z

/-- What follows the sign of an offset. -/
theorem exists_offsetChars (z : Int) : ∃ body,
    offsetChars z = (if z < 0 then '-' else '+') :: body ∧
      (body = padded 2 (z.natAbs / 1000000 / 3600) ++ ':' ::
          padded 2 (z.natAbs / 1000000 / 60 % 60) ∧
        z.natAbs / 1000000 % 60 = 0 ∧ z.natAbs % 1000000 = 0 ∨
      body = clockChars (z.natAbs / 1000000 / 3600) (z.natAbs / 1000000 / 60 % 60)
        (z.natAbs / 1000000 % 60) ++ fractionChars (z.natAbs % 1000000)) := by
  refine ⟨_, rfl, ?_⟩
  by_cases hshort : z.natAbs / 1000000 % 60 = 0 ∧ z.natAbs % 1000000 = 0
  · exact Or.inl ⟨if_pos hshort, hshort⟩
  · exact Or.inr (if_neg hshort)

/-- An offset below a day is read with the sign in front of it. -/
theorem readClock?_offset {z : Int} (h : z.natAbs < microsecondsPerDay) :
    ∃ body distance, offsetChars z = (if z < 0 then '-' else '+') :: body ∧
      readClock? body = some (distance, false) ∧
      offsetOf (decide (z < 0)) distance = readableOffset z := by
  obtain ⟨body, hbody, hform⟩ := exists_offsetChars z
  have hday : z.natAbs < 86400000000 := h
  let distance : Clock := ⟨z.natAbs / 1000000 / 3600, z.natAbs / 1000000 / 60 % 60,
    z.natAbs / 1000000 % 60, z.natAbs % 1000000⟩
  refine ⟨body, distance, hbody, ?_, ?_⟩
  · rcases hform with ⟨rfl, hsecond, hmicrosecond⟩ | rfl
    · rw [readClock?_minutes (by omega) (by omega)]
      simp only [distance, hsecond, hmicrosecond]
    · exact readClock?_written (by omega) (by omega) (by omega) (by omega)
  · have hseconds : distance.hour * 3600 + distance.minute * 60 + distance.second =
        z.natAbs / 1000000 := by
      simp only [distance]
      omega
    rw [offsetOf, hseconds, readableOffset]
    simp only [distance, decide_eq_true_eq]
    split_ifs <;> omega

/-! ## The characters of a timestamp -/

def timeChars (t : Timestamp) : List Char :=
  clockChars t.hour t.minute t.second ++ fractionChars t.microsecond ++
    (match t.offset with
      | none => []
      | some z => offsetChars z)

theorem chars_eq (t : Timestamp) :
    t.chars = padded 4 t.year ++ '-' :: (padded 2 t.month ++ '-' :: (padded 2 t.day ++
      'T' :: t.timeChars)) := by
  cases hoffset : t.offset <;>
    simp only [chars, timeChars, hoffset, List.append_assoc, List.cons_append]

def isWritten (c : Char) : Bool := c.isDigit || ['-', ':', 'T', '.', '+'].contains c

theorem isWritten_of_mem_padded {width n : Nat} {c : Char} (h : c ∈ padded width n) :
    isWritten c = true := by
  rw [isWritten, isDigit_of_mem_padded h]
  rfl

theorem of_mem_clock {hour minute second microsecond : Nat} {c : Char}
    (h : c ∈ clockChars hour minute second ++ fractionChars microsecond) :
    c.isDigit = true ∨ c = ':' ∨ c = '.' := by
  rw [List.mem_append] at h
  rcases h with h | h
  · simp only [clockChars, List.mem_append, List.mem_cons] at h
    rcases h with (h | rfl | h) | rfl | h
    · exact Or.inl (isDigit_of_mem_padded h)
    · exact Or.inr (Or.inl rfl)
    · exact Or.inl (isDigit_of_mem_padded h)
    · exact Or.inr (Or.inl rfl)
    · exact Or.inl (isDigit_of_mem_padded h)
  · rw [fractionChars] at h
    split at h
    · cases h
    · rcases List.mem_cons.mp h with rfl | h
      · exact Or.inr (Or.inr rfl)
      · exact Or.inl (isDigit_of_mem_padded h)

theorem isWritten_of_mem_clock {hour minute second microsecond : Nat} {c : Char}
    (h : c ∈ clockChars hour minute second ++ fractionChars microsecond) : isWritten c = true := by
  rcases of_mem_clock h with h | rfl | rfl
  · rw [isWritten, h]
    rfl
  · rfl
  · rfl

theorem isWritten_of_mem_offsetChars {z : Int} {c : Char} (h : c ∈ offsetChars z) :
    isWritten c = true := by
  obtain ⟨body, hbody, hform⟩ := exists_offsetChars z
  rw [hbody] at h
  rcases List.mem_cons.mp h with rfl | h
  · split <;> rfl
  · rcases hform with ⟨rfl, -⟩ | rfl
    · rcases List.mem_append.mp h with h | h
      · exact isWritten_of_mem_padded h
      · rcases List.mem_cons.mp h with rfl | h
        · rfl
        · exact isWritten_of_mem_padded h
    · exact isWritten_of_mem_clock h

theorem isWritten_of_mem_timeChars {t : Timestamp} {c : Char} (h : c ∈ t.timeChars) :
    isWritten c = true := by
  rw [timeChars, List.mem_append] at h
  rcases h with h | h
  · exact isWritten_of_mem_clock h
  · cases hoffset : t.offset with
    | none =>
        rw [hoffset] at h
        cases h
    | some z =>
        rw [hoffset] at h
        exact isWritten_of_mem_offsetChars h

theorem isWritten_of_mem_chars {t : Timestamp} {c : Char} (h : c ∈ t.chars) :
    isWritten c = true := by
  simp only [chars_eq, List.mem_append, List.mem_cons] at h
  rcases h with h | rfl | h | rfl | h | rfl | h
  · exact isWritten_of_mem_padded h
  · rfl
  · exact isWritten_of_mem_padded h
  · rfl
  · exact isWritten_of_mem_padded h
  · rfl
  · exact isWritten_of_mem_timeChars h

theorem of_isWritten {c : Char} (h : isWritten c = true) :
    c.toNat < 0x80 ∧ Text.isBlank c = false ∧ c ≠ 'Z' := by
  rw [isWritten, Bool.or_eq_true] at h
  rcases h with h | h
  · have hrange := toNat_of_isDigit h
    refine ⟨by omega, Text.not_isBlank_of_isDigit h, ?_⟩
    rintro rfl
    cases h
  · simp only [List.contains_eq_mem, decide_eq_true_eq, List.mem_cons, List.not_mem_nil,
      or_false] at h
    rcases h with rfl | rfl | rfl | rfl | rfl <;> decide

/-! ## The text as it is read -/

theorem point_notMem_padded (width n : Nat) : '.' ∉ padded width n := by
  intro h
  cases isDigit_of_mem_padded h

theorem point_notMem_clockChars (hour minute second : Nat) :
    '.' ∉ clockChars hour minute second := by
  simp only [clockChars, List.mem_append, List.mem_cons, point_notMem_padded]
  decide

/-- A fraction that was written has six digits, so none of them is left out. -/
theorem cutFractions_fraction {cs : List Char} (h : '.' ∉ cs) (microsecond : Nat) :
    cutFractions none (cs ++ fractionChars microsecond) = cs ++ fractionChars microsecond := by
  have hdigits : ∀ c ∈ padded 6 microsecond, Text.isDigit c = true :=
    fun c hc => Text.isDigit_of_isDigit (isDigit_of_mem_padded hc)
  rw [fractionChars]
  split
  · rw [List.append_nil, cutFractions_none h]
  · have hkept := cutFractions_kept hdigits (n := 0) (by rw [length_padded]) []
    rw [List.append_nil] at hkept
    rw [cutFractions_append_cons isDigit_point, cutFractions_none h, if_pos rfl, hkept]
    show cs ++ '.' :: (_ ++ []) = _
    rw [List.append_nil]

theorem cutFractions_offset (cs : List Char) (z : Int) :
    cutFractions none (cs ++ offsetChars z) = cutFractions none cs ++ offsetChars z := by
  obtain ⟨body, hbody, hform⟩ := exists_offsetChars z
  have hsign : Text.isDigit (if z < 0 then '-' else '+') = false := by
    split <;> decide
  have hpoint : (if z < 0 then '-' else '+') ≠ '.' := by
    split <;> decide
  have hcut : cutFractions none body = body := by
    rcases hform with ⟨rfl, -⟩ | rfl
    · apply cutFractions_none
      simp only [List.mem_append, List.mem_cons, point_notMem_padded]
      decide
    · exact cutFractions_fraction (point_notMem_clockChars _ _ _) _
  rw [hbody, cutFractions_append_cons hsign, if_neg hpoint, hcut]

theorem cutFractions_chars (t : Timestamp) : cutFractions none t.chars = t.chars := by
  have hdate : t.chars = (padded 4 t.year ++ '-' :: (padded 2 t.month ++ '-' :: (padded 2 t.day ++
      'T' :: clockChars t.hour t.minute t.second))) ++ fractionChars t.microsecond ++
        t.offset.elim [] offsetChars := by
    cases hoffset : t.offset <;> simp [chars_eq, timeChars, hoffset]
  have hpoint : '.' ∉ padded 4 t.year ++ '-' :: (padded 2 t.month ++ '-' :: (padded 2 t.day ++
      'T' :: clockChars t.hour t.minute t.second)) := by
    simp only [List.mem_append, List.mem_cons, point_notMem_padded, point_notMem_clockChars]
    decide
  rw [hdate]
  cases t.offset with
  | none =>
      rw [Option.elim_none, List.append_nil, cutFractions_fraction hpoint]
  | some z =>
      rw [Option.elim_some, cutFractions_offset, cutFractions_fraction hpoint]

/-- A timestamp is read in the form in which it was written. -/
theorem normalized_chars (t : Timestamp) : normalized t.chars = t.chars := by
  have hstrip : Text.strip t.chars = t.chars :=
    Text.trim_eq_self fun c hc => (of_isWritten (isWritten_of_mem_chars hc)).2.1
  have hlast : t.chars.getLast? ≠ some 'Z' := by
    intro h
    exact (of_isWritten (isWritten_of_mem_chars (List.mem_of_getLast? h))).2.2 rfl
  rw [normalized, hstrip, cutFractions_chars, expandZulu, if_neg hlast]

theorem units_eq_self {cs : List Char} (h : ∀ c ∈ cs, c.toNat < 0x80) : units cs = cs := by
  induction cs with
  | nil => rfl
  | cons c rest ih =>
      obtain ⟨hc, hrest⟩ := List.forall_mem_cons.mp h
      rw [units, List.flatMap_cons, if_pos hc]
      exact congrArg (c :: ·) (ih hrest)

/-! ## Reading -/

/-- No sign of an offset stands in a time of day. -/
theorem unsigned_of_mem_clock {hour minute second microsecond : Nat} {c : Char}
    (h : c ∈ clockChars hour minute second ++ fractionChars microsecond) :
    (!isOffsetSign c) = true := by
  rcases of_mem_clock h with h | rfl | rfl
  · simp only [isOffsetSign, Bool.not_or, Bool.and_eq_true, Bool.not_eq_true', beq_eq_false_iff_ne]
    refine ⟨⟨?_, ?_⟩, ?_⟩ <;>
      · rintro rfl
        cases h
  · rfl
  · rfl

section

variable {cs body : List Char} {clock distance : Clock}

theorem readTime?_unsigned (h : ∀ c ∈ cs, (!isOffsetSign c) = true)
    (hclock : readClock? cs = some (clock, false)) : readTime? cs = some (clock, none) := by
  rw [readTime?, List.takeWhile_eq_self_iff.mpr h, List.dropWhile_eq_nil_iff.mpr h, hclock]
  rfl

theorem readTime?_signed (h : ∀ c ∈ cs, (!isOffsetSign c) = true)
    (hclock : readClock? cs = some (clock, false)) {sign : Char} (hsign : sign = '+' ∨ sign = '-')
    (hbody : readClock? body = some (distance, false)) :
    readTime? (cs ++ sign :: body) = some (clock, some (offsetOf (sign == '-') distance)) := by
  have hmark : ∀ c ∈ (sign :: body).head?, (!isOffsetSign c) = false := by
    rintro _ ⟨⟩
    rcases hsign with rfl | rfl <;> rfl
  obtain ⟨htime, hoffset⟩ := span_of_stop (p := fun c => !isOffsetSign c) h hmark
  rw [readTime?, htime, hoffset, hclock]
  rcases hsign with rfl | rfl <;>
    · show (readClock? body).bind _ = _
      rw [hbody]
      rfl

end

theorem readTime?_timeChars {t : Timestamp} (h : t.IsValid) :
    readTime? t.timeChars = some
      ({ hour := t.hour, minute := t.minute, second := t.second, microsecond := t.microsecond },
        t.offset.map readableOffset) := by
  obtain ⟨-, -, -, -, -, -, hhour, hminute, hsecond, hmicrosecond, hoffset⟩ := h
  have hclock : readClock? (clockChars t.hour t.minute t.second ++ fractionChars t.microsecond) =
      some (⟨t.hour, t.minute, t.second, t.microsecond⟩, false) :=
    readClock?_written (by omega) (by omega) (by omega) hmicrosecond
  have hunsigned : ∀ c ∈ clockChars t.hour t.minute t.second ++ fractionChars t.microsecond,
      (!isOffsetSign c) = true := fun c hc => unsigned_of_mem_clock hc
  rw [timeChars]
  cases hz : t.offset with
  | none =>
      rw [Option.map_none, ← readTime?_unsigned hunsigned hclock]
      exact congrArg readTime? (List.append_nil _)
  | some z =>
      obtain ⟨body, distance, hbody, hread, hdistance⟩ := readClock?_offset (hoffset z hz)
      have hsign : (if z < 0 then '-' else '+') = '+' ∨ (if z < 0 then '-' else '+') = '-' := by
        split <;> decide
      have hminus : ((if z < 0 then '-' else '+') == '-') = decide (z < 0) := by
        by_cases hz : z < 0 <;> simp [hz]
      dsimp only
      rw [hbody, readTime?_signed hunsigned hclock hsign hread, hminus, hdistance]
      rfl

theorem exists_padded (width n : Nat) : ∃ c rest, padded (width + 1) n = c :: rest ∧
    c.isDigit = true := by
  cases hpadded : padded (width + 1) n with
  | nil => exact absurd hpadded (padded_succ_ne_nil width n)
  | cons c rest =>
      have hmem : c ∈ padded (width + 1) n := by
        rw [hpadded]
        exact List.mem_cons_self
      exact ⟨c, rest, rfl, isDigit_of_mem_padded hmem⟩

/-- The month of a date that was written begins with a digit, and so with no `W`. -/
theorem exists_month (t : Timestamp) : ∃ c rest,
    padded 2 t.month ++ '-' :: (padded 2 t.day ++ 'T' :: t.timeChars) = c :: rest ∧ c ≠ 'W' := by
  obtain ⟨c, rest, hpadded, hdigit⟩ := exists_padded 1 t.month
  refine ⟨c, rest ++ '-' :: (padded 2 t.day ++ 'T' :: t.timeChars), ?_, ?_⟩
  · rw [hpadded, List.cons_append]
  · rintro rfl
    cases hdigit

theorem charAt_padded (n k : Nat) (cs : List Char) :
    charAt (padded 4 n ++ cs) (4 + k) = charAt cs k := by
  have hbehind : (padded 4 n).length ≤ 4 + k := by
    rw [length_padded]
    omega
  rw [charAt, charAt, List.getD_eq_getElem?_getD, List.getElem?_append_right hbehind, length_padded,
    Nat.add_sub_cancel_left, List.getD_eq_getElem?_getD]

theorem dateEnd_chars (t : Timestamp) : dateEnd t.chars = 10 := by
  obtain ⟨c, rest, hmonth, hweek⟩ := exists_month t
  have hlength : t.chars.length ≠ 7 := by
    simp only [chars_eq, List.length_append, List.length_cons, length_padded]
    omega
  have hhyphen : charAt t.chars 4 = '-' := by
    rw [chars_eq, charAt_padded _ 0]
    rfl
  have hdigit : charAt t.chars 5 ≠ 'W' := by
    rw [chars_eq, charAt_padded _ 1, hmonth]
    exact hweek
  rw [dateEnd, if_neg hlength, if_pos hhyphen, if_neg hdigit]

theorem daysInMonth_le (year month : Nat) : daysInMonth year month ≤ 31 := by
  unfold daysInMonth
  split
  · split <;> decide
  · decide
  · decide
  · decide
  · decide
  · decide

theorem readDate?_chars {t : Timestamp} (h : t.IsValid) :
    readDate? 10 t.chars = some (t.year, t.month, t.day) := by
  obtain ⟨-, hyear, -, hmonth, -, hday, -⟩ := h
  have hyear' : t.year < 10000 := by omega
  have hmonth' : t.month < 100 := by omega
  have hday' : t.day < 100 := by
    have hdays := daysInMonth_le t.year t.month
    omega
  obtain ⟨c, rest, hrest, hweek⟩ := exists_month t
  rw [chars_eq, hrest, readDate?, takeDigits_fitting 4 hyear']
  simp only [Option.bind_eq_bind, Option.bind_some, List.head?_cons, beq_self_eq_true, if_true,
    List.tail_cons]
  split
  · rename_i hw
    exact absurd (List.cons.inj hw).1 hweek
  · rw [← hrest, takeDigits_fitting 2 hmonth']
    simp only [Option.bind_some, dropHyphen?, if_true, takeDigits_fitting 2 hday']
    rfl

theorem drop_chars (t : Timestamp) : t.chars.drop 11 = t.timeChars := by
  have hsplit : t.chars = (padded 4 t.year ++ '-' :: (padded 2 t.month ++ '-' ::
      (padded 2 t.day ++ ['T']))) ++ t.timeChars := by
    simp [chars_eq]
  rw [hsplit]
  apply List.drop_left'
  simp [length_padded]

/-- A timestamp that was written is read as itself, except for an offset of less than a second. -/
theorem read?_chars {t : Timestamp} (h : t.IsValid) :
    read? t.chars = some { t with offset := t.offset.map readableOffset } := by
  have hascii : ∀ c ∈ t.chars, c.toNat < 0x80 :=
    fun c hc => (of_isWritten (isWritten_of_mem_chars hc)).1
  have hunits := units_eq_self hascii
  have htime : units t.timeChars = t.timeChars := by
    apply units_eq_self
    intro c hc
    rw [← drop_chars] at hc
    exact hascii c (List.mem_of_mem_drop hc)
  have hlong : 10 < t.chars.length := by
    simp only [chars_eq, List.length_append, List.length_cons, length_padded]
    omega
  have hvalid : IsValid { t with offset := t.offset.map readableOffset } := by
    obtain ⟨hyear, hyear', hmonth, hmonth', hday, hday', hhour, hminute, hsecond, hmicrosecond,
      hoffset⟩ := h
    refine ⟨hyear, hyear', hmonth, hmonth', hday, hday', hhour, hminute, hsecond, hmicrosecond, ?_⟩
    intro z hz
    obtain ⟨z', hz', rfl⟩ := Option.map_eq_some_iff.mp hz
    rw [readableOffset]
    split
    · decide
    · exact hoffset z' hz'
  rw [read?, hunits, dateEnd_chars, readDate?_chars h, drop_chars, htime, readTime?_timeChars h]
  simp only [Option.bind_eq_bind, Option.bind_some, if_pos hlong]
  exact if_pos hvalid

/-! ## Round trip -/

/-- Whether the offset, if it is known, is a whole number of seconds. -/
def WholeSeconds (t : Timestamp) : Prop := ∀ z ∈ t.offset, (1000000 : ℤ) ∣ z

theorem map_readableOffset {t : Timestamp} (h : t.WholeSeconds) :
    t.offset.map readableOffset = t.offset := by
  cases hz : t.offset with
  | none => rfl
  | some z =>
      have hwhole : (1000000 : ℤ) ∣ z := h z hz
      have hsame : readableOffset z = z := by
        rw [readableOffset]
        split
        · omega
        · rfl
      rw [Option.map_some, hsame]

theorem normalized_respelled {t : Timestamp} {s : String}
    (hs : Relation.ReflTransGen Respelled t.text s) : normalized s.toList = t.chars := by
  induction hs with
  | refl => rw [text, String.toList_ofList, normalized_chars]
  | tail _ hstep ih => rw [hstep.normalized_eq, ih]

/-- A timestamp after the first year is read back from its text, with the same time of day and the
same offset, and so it is from every other spelling of its text. In the first year it is taken for
no time. -/
theorem decode_respelled {t : Timestamp} (h : t.IsValid) {s : String}
    (hs : Relation.ReflTransGen Respelled t.text s) :
    (2 ≤ t.year → t.WholeSeconds → (decode (.str s)).outcome = (.ok (some t), [])) ∧
      (t.year = 1 → (decode (.str s)).outcome = (.ok none, [])) := by
  have hread : read? (normalized s.toList) =
      some { t with offset := t.offset.map readableOffset } := by
    rw [normalized_respelled hs, read?_chars h]
  have hquiet : ¬ (s ≠ "" ∧ read? (normalized s.toList) = none) := by
    rw [hread]
    exact fun hnone => nomatch hnone.2
  rw [outcome_decode, if_neg hquiet, ofText?, hread]
  constructor
  · intro hyear hwhole
    have hlater : decide (1 < t.year) = true := decide_eq_true hyear
    rw [map_readableOffset hwhole, Option.filter_some, if_pos hlater]
  · intro hyear
    have hfirst : ¬ decide (1 < t.year) = true := by
      rw [hyear]
      decide
    rw [Option.filter_some, if_neg hfirst]

/-- The last microsecond of a leap day, with white space, nanoseconds and a `Z`. -/
theorem decode_respelled_leap_day :
    let t : Timestamp := ⟨2024, 2, 29, 23, 59, 59, 999999, some 0⟩
    let s := " 2024-02-29T23:59:59.999999999Z\n"
    t.IsValid ∧ Relation.ReflTransGen Respelled t.text s ∧ 2 ≤ t.year ∧ t.WholeSeconds ∧
      (decode (.str s)).outcome = (.ok (some t), []) := by
  intro t s
  have hvalid : t.IsValid := by decide
  have hwhole : t.WholeSeconds := by
    rintro z ⟨⟩
    decide
  let whole := "2024-02-29T23:59:59".toList
  let fraction := "999999".toList
  let more := "999".toList
  let zero := ['+', '0', '0', ':', '0', '0']
  let shown := "2024-02-29T23:59:59.999999999".toList
  have hwritten : t.chars = whole ++ '.' :: (fraction ++ zero) := by decide +kernel
  have hlong : whole ++ '.' :: (fraction ++ (more ++ zero)) = shown ++ zero := by decide +kernel
  have hspaced : s.toList = [' '] ++ (shown ++ ['Z']) ++ ['\n'] := by decide +kernel
  have hs : Relation.ReflTransGen Respelled t.text s := by
    have hdigits : Respelled t.text (.ofList (shown ++ zero)) := by
      rw [text, hwritten, ← hlong]
      exact .digits rfl (List.all_eq_true.mp (by decide +kernel))
        (List.all_eq_true.mp (by decide +kernel)) whole zero
    have hblanks : Respelled (.ofList (shown ++ ['Z'])) s := by
      rw [← String.ofList_toList (s := s), hspaced]
      exact .blanks _ _ (List.all_eq_true.mp (by decide +kernel))
        (List.all_eq_true.mp (by decide +kernel)) _
    exact ((Relation.ReflTransGen.single hdigits).tail (.zulu shown)).tail hblanks
  exact ⟨hvalid, hs, by decide, hwhole, (decode_respelled hvalid hs).1 (by decide) hwhole⟩

end CardImport.Timestamp
