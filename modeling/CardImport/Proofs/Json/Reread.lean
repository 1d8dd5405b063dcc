import CardImport.Json.Printer
import CardImport.Proofs.Json.Readable

/-!
# Values that are read where they were written

A value that can be read is read back from its written form, in every style: each part is read up
to what follows it, and the length of the text is fuel enough. So a file that a value was written
to holds that value.
-/

namespace CardImport.Json

/-! ## Texts -/

theorem hexValue?_digitChar {n : ℕ} (h : n < 16) : hexValue? (Nat.digitChar n) = some n := by
  have hall : ∀ n < 16, hexValue? (Nat.digitChar n) = some n := by decide
  exact hall n h

theorem readPieces_unitEscape {n : ℕ} (h : n < 0x10000) (cs : List Char) :
    readPieces (unitEscape n ++ cs) = consPiece (.unit n) (readPieces cs) := by
  have hunit : unit? (Nat.digitChar (n / 16 / 16 / 16 % 16)) (Nat.digitChar (n / 16 / 16 % 16))
      (Nat.digitChar (n / 16 % 16)) (Nat.digitChar (n % 16)) = some n := by
    rw [unit?, hexValue?_digitChar (by omega), hexValue?_digitChar (by omega),
      hexValue?_digitChar (by omega), hexValue?_digitChar (by omega)]
    refine congrArg some ?_
    omega
  have hchars : unitEscape n ++ cs = '\\' :: 'u' :: Nat.digitChar (n / 16 / 16 / 16 % 16) ::
      Nat.digitChar (n / 16 / 16 % 16) :: Nat.digitChar (n / 16 % 16) :: Nat.digitChar (n % 16) ::
      cs := rfl
  rw [hchars, readPieces, hunit]

theorem readPieces_escaped {c x : Char} (h : escapedChar? c = some x) (cs : List Char) :
    readPieces ('\\' :: c :: cs) = consPiece (.char x) (readPieces cs) := by
  rw [readPieces.eq_3, h]
  rintro _ _ _ _ _ rfl -
  cases h

theorem readPieces_char {c : Char} (hquote : c ≠ '\x22') (hslash : c ≠ '\\') (h : 0x20 ≤ c.toNat)
    (cs : List Char) : readPieces (c :: cs) = consPiece (.char c) (readPieces cs) := by
  rw [readPieces.eq_4, if_neg hquote, if_neg (by rw [not_or]; exact ⟨hslash, Nat.not_lt.mpr h⟩)]
  · exact fun _ _ _ _ _ h => absurd h hslash
  · exact fun _ _ h => absurd h hslash

theorem joined_unit {n : ℕ} (h : isHighUnit n = false) (ps : List Piece) :
    joined (.unit n :: ps) = unitChar n :: joined ps := by
  cases ps with
  | nil => rfl
  | cons p rest =>
      cases p with
      | char c => rfl
      | unit low => rw [joined, h, Bool.false_and, if_neg Bool.false_ne_true]

/-- The numbers of characters leave out the halves of pairs. -/
theorem toNat_valid (c : Char) : c.toNat < 0xd800 ∨ 0xdfff < c.toNat ∧ c.toNat < 0x110000 :=
  c.valid

theorem joined_charEscape (c : Char) (cs rest : List Char) (ps : List Piece)
    (h : readPieces cs = .ok (ps, rest)) :
    ∃ qs, readPieces (charEscape c ++ cs) = .ok (qs, rest) ∧ joined qs = c :: joined ps := by
  have hvalid := toNat_valid c
  unfold charEscape
  dsimp only
  split
  · rename_i hsmall
    refine ⟨.unit c.toNat :: ps, ?_, ?_⟩
    · rw [readPieces_unitEscape hsmall, h]
      rfl
    · have hhigh : isHighUnit c.toNat = false := by
        simp only [isHighUnit, Bool.and_eq_false_iff, decide_eq_false_iff_not]
        omega
      have hlow : isLowUnit c.toNat = false := by
        simp only [isLowUnit, Bool.and_eq_false_iff, decide_eq_false_iff_not]
        omega
      rw [joined_unit hhigh, unitChar, hhigh, hlow, Bool.or_false, if_neg Bool.false_ne_true,
        Char.ofNat_toNat]
  · rename_i hlarge
    refine ⟨.unit (0xd800 + (c.toNat - 0x10000) / 0x400) ::
      .unit (0xdc00 + (c.toNat - 0x10000) % 0x400) :: ps, ?_, ?_⟩
    · rw [List.append_assoc, readPieces_unitEscape (by omega), readPieces_unitEscape (by omega), h]
      rfl
    -- Beyond the basic plane a pair of units is written, and read back as one character.
    · have hpair : (isHighUnit (0xd800 + (c.toNat - 0x10000) / 0x400) &&
          isLowUnit (0xdc00 + (c.toNat - 0x10000) % 0x400)) = true := by
        simp only [isHighUnit, isLowUnit, Bool.and_eq_true, decide_eq_true_eq]
        omega
      have hchar : 0x10000 + (0xd800 + (c.toNat - 0x10000) / 0x400 - 0xd800) * 0x400 +
          (0xdc00 + (c.toNat - 0x10000) % 0x400 - 0xdc00) = c.toNat := by
        omega
      rw [joined, if_pos hpair, pairChar, hchar, Char.ofNat_toNat]

theorem joined_writtenChar (asciiOnly : Bool) (c : Char) (cs rest : List Char) (ps : List Piece)
    (h : readPieces cs = .ok (ps, rest)) :
    ∃ qs, readPieces (writtenChar asciiOnly c ++ cs) = .ok (qs, rest) ∧
      joined qs = c :: joined ps := by
  have hescaped : ∀ {d x : Char}, escapedChar? d = some x →
      ∃ qs, readPieces ('\\' :: d :: cs) = .ok (qs, rest) ∧ joined qs = x :: joined ps := by
    intro d x hd
    refine ⟨.char x :: ps, ?_, rfl⟩
    rw [readPieces_escaped hd, h]
    rfl
  by_cases hquote : c = '\x22'
  · subst hquote; exact hescaped rfl
  by_cases hslash : c = '\\'
  · subst hslash; exact hescaped rfl
  by_cases hnewline : c = '\n'
  · subst hnewline; exact hescaped rfl
  by_cases hreturn : c = '\r'
  · subst hreturn; exact hescaped rfl
  by_cases htab : c = '\t'
  · subst htab; exact hescaped rfl
  by_cases hback : c = '\x08'
  · subst hback; exact hescaped rfl
  by_cases hfeed : c = '\x0c'
  · subst hfeed; exact hescaped rfl
  -- No short escape applies, so the character stands for itself or as one or two units.
  rw [writtenChar, if_neg hquote, if_neg hslash, if_neg hnewline, if_neg hreturn, if_neg htab,
    if_neg hback, if_neg hfeed]
  split
  · exact joined_charEscape c cs rest ps h
  · rename_i hcontrol
    split
    · exact joined_charEscape c cs rest ps h
    · refine ⟨.char c :: ps, ?_, rfl⟩
      rw [List.singleton_append, readPieces_char hquote hslash (Nat.not_lt.mp hcontrol), h]
      rfl

theorem readText_written (asciiOnly : Bool) (cs rest : List Char) :
    readText (cs.flatMap (writtenChar asciiOnly) ++ '\x22' :: rest) = .ok (cs, rest) := by
  have hpieces : ∃ ps, readPieces (cs.flatMap (writtenChar asciiOnly) ++ '\x22' :: rest) =
      .ok (ps, rest) ∧ joined ps = cs := by
    induction cs with
    | nil => exact ⟨[], rfl, rfl⟩
    | cons c cs ih =>
        obtain ⟨ps, hps, hjoined⟩ := ih
        obtain ⟨qs, hqs, hc⟩ := joined_writtenChar asciiOnly c _ rest ps hps
        exact ⟨qs, by rw [List.flatMap_cons, List.append_assoc, hqs], by rw [hc, hjoined]⟩
  obtain ⟨ps, hps, rfl⟩ := hpieces
  rw [readText, hps]
  rfl

/-! ## Numbers -/

theorem readWord?_digit {c : Char} (h : c.isDigit = true) (cs : List Char) :
    readWord? (c :: cs) = none ∧ readWord? ('-' :: c :: cs) = none := by
  have hne : ∀ w, w.isDigit = false → w ≠ c := by
    rintro w hw rfl
    cases hw.symm.trans h
  simp [readWord?, words, dropWord?, hne]

theorem readPlain_signed {negative : Bool} {c : Char} (h : c.isDigit = true) (cs : List Char) :
    readPlain (Binary64.signed negative (c :: cs)) = readUnsigned negative (c :: cs) := by
  obtain ⟨hplain, hminus⟩ := readWord?_digit h cs
  cases negative with
  | true =>
      have hsigned : Binary64.signed true (c :: cs) = '-' :: c :: cs := rfl
      rw [hsigned, readPlain, hminus]
  | false =>
      have hsigned : Binary64.signed false (c :: cs) = c :: cs := rfl
      rw [hsigned, readPlain, hplain]
      intro rest heq
      obtain ⟨rfl, -⟩ := List.cons.inj heq
      cases h

theorem toList_toString (n : ℤ) :
    (toString n).toList = Binary64.signed (decide (n < 0)) (Nat.toDigits 10 n.natAbs) := by
  cases n with
  | ofNat m =>
      have hsign : decide (Int.ofNat m < 0) = false := decide_eq_false (by simp)
      rw [hsign, Int.toString_eq_repr, Int.repr, Nat.toList_repr]
      rfl
  | negSucc m =>
      have hsign : decide (Int.negSucc m < 0) = true := decide_eq_true (Int.negSucc_lt_zero m)
      rw [hsign, Int.toString_eq_repr, Int.repr, String.toList_append, Nat.toList_repr]
      rfl

variable {rest : List Char}

theorem readPlain_int {n : ℤ} (short : Number.Short n) (hrest : Ended rest) :
    readPlain ((toString n).toList ++ rest) = .ok (.int n, rest) := by
  have hread := @readUnsigned_whole _ rest (decide (n < 0)) (whole_toDigits n.natAbs) short hrest
  have hvalue : (if decide (n < 0) = true then -(n.natAbs : ℤ) else n.natAbs) = n := by
    split
    · rename_i h
      have := of_decide_eq_true h
      omega
    · rename_i h
      have := of_decide_eq_false (Bool.eq_false_of_not_eq_true h)
      omega
  rw [Nat.ofDigitChars_ten_toDigits, hvalue] at hread
  cases hdigits : Nat.toDigits 10 n.natAbs with
  | nil => exact absurd hdigits Nat.toDigits_ne_nil
  | cons c cs =>
      have hc : c.isDigit = true := isDigit_of_mem_toDigits (hdigits ▸ List.mem_cons_self)
      have happend : (toString n).toList ++ rest =
          Binary64.signed (decide (n < 0)) (c :: (cs ++ rest)) := by
        rw [toList_toString, hdigits]
        cases decide (n < 0) with
        | true => rfl
        | false => rfl
      rw [happend, readPlain_signed hc, ← List.cons_append, ← hdigits, hread]

theorem readPlain_float (x : Binary64) (hrest : Ended rest) :
    readPlain (writtenBinary x ++ rest) = .ok (.float x, rest) := by
  cases x with
  | nan => rfl
  | infinite negative =>
      cases negative with
      | true => rfl
      | false => rfl
  | finite negative m e canonical =>
      have hread := Binary64.readUnsigned_shortest negative canonical hrest
      obtain ⟨c, cs, hlayout, hc⟩ :=
        Binary64.exists_digit_of_layout (Binary64.shortest (.finite negative m e canonical))
      have happend : writtenBinary (.finite negative m e canonical) ++ rest =
          Binary64.signed negative (c :: (cs ++ rest)) := by
        rw [writtenBinary, Binary64.textChars, hlayout]
        cases negative with
        | true => rfl
        | false => rfl
      rw [happend, readPlain_signed hc, ← List.cons_append, ← hlayout, hread]

/-! ## Heads of values -/

/-- What a value that is no text, array or object begins with. -/
def plainHead (c : Char) : Bool := c.isDigit || ['n', 't', 'f', 'N', 'I', '-'].contains c

theorem notMem_of_plainHead {c : Char} (h : plainHead c = true) :
    c ∉ [' ', '\t', '\n', '\r', ']', '\x22', '[', '\x7b'] := by
  intro hc
  have hall : ∀ c ∈ [' ', '\t', '\n', '\r', ']', '\x22', '[', '\x7b'], plainHead c = false := by
    simp [plainHead]
  cases (hall c hc).symm.trans h

theorem exists_plainHead_of_signed (negative : Bool) {c : Char} (h : plainHead c = true)
    (cs : List Char) :
    ∃ d ds, Binary64.signed negative (c :: cs) = d :: ds ∧ plainHead d = true := by
  cases negative with
  | true => exact ⟨'-', c :: cs, rfl, rfl⟩
  | false => exact ⟨c, cs, rfl, h⟩

theorem plainHead_of_isDigit {c : Char} (h : c.isDigit = true) : plainHead c = true := by
  rw [plainHead, h, Bool.true_or]

theorem exists_plainHead_of_int (n : ℤ) :
    ∃ c cs, (toString n).toList = c :: cs ∧ plainHead c = true := by
  rw [toList_toString]
  cases hdigits : Nat.toDigits 10 n.natAbs with
  | nil => exact absurd hdigits Nat.toDigits_ne_nil
  | cons c cs =>
      have hc : c.isDigit = true := isDigit_of_mem_toDigits (hdigits ▸ List.mem_cons_self)
      exact exists_plainHead_of_signed _ (plainHead_of_isDigit hc) cs

theorem exists_plainHead_of_float (x : Binary64) :
    ∃ c cs, writtenBinary x = c :: cs ∧ plainHead c = true := by
  cases x with
  | nan => exact ⟨_, _, rfl, rfl⟩
  | infinite negative => exact exists_plainHead_of_signed negative rfl _
  | finite negative m e canonical =>
      obtain ⟨c, cs, hlayout, hc⟩ :=
        Binary64.exists_digit_of_layout (Binary64.shortest (.finite negative m e canonical))
      rw [writtenBinary, Binary64.textChars, hlayout]
      exact exists_plainHead_of_signed negative (plainHead_of_isDigit hc) cs

theorem exists_tail_of_enclosed (style : Style) (k : ℕ) (opening closing : Char)
    (items : List (List Char)) : ∃ cs, style.enclosed k opening closing items = opening :: cs := by
  cases items with
  | nil => exact ⟨_, rfl⟩
  | cons item items => exact ⟨_, rfl⟩

/-- A written value begins with no space, and not with the end of an array. -/
theorem exists_head_of_written (style : Style) (k : ℕ) (x : Json) :
    ∃ c cs, written style k x = c :: cs ∧ isSpace c = false ∧ c ≠ ']' := by
  have hplain : ∀ {c : Char}, plainHead c = true → isSpace c = false ∧ c ≠ ']' := by
    intro c hc
    have hnot := notMem_of_plainHead hc
    simp only [List.mem_cons, not_or] at hnot
    simp [isSpace, hnot]
  have hhead : ∀ {cs : List Char}, (∃ c ds, cs = c :: ds ∧ plainHead c = true) →
      ∃ c ds, cs = c :: ds ∧ isSpace c = false ∧ c ≠ ']' := by
    rintro _ ⟨c, ds, rfl, hc⟩
    exact ⟨c, ds, rfl, hplain hc⟩
  cases x with
  | null => exact ⟨_, _, rfl, by decide, by decide⟩
  | bool b =>
      cases b with
      | true => exact ⟨_, _, rfl, by decide, by decide⟩
      | false => exact ⟨_, _, rfl, by decide, by decide⟩
  | int n => exact hhead (exists_plainHead_of_int n)
  | float x => exact hhead (exists_plainHead_of_float x)
  | str s => exact ⟨_, _, rfl, by decide, by decide⟩
  | arr xs =>
      obtain ⟨cs, hcs⟩ := exists_tail_of_enclosed style k '[' ']' (writtenElements style (k + 1) xs)
      exact ⟨'[', cs, hcs, by decide, by decide⟩
  | obj fields =>
      obtain ⟨cs, hcs⟩ :=
        exists_tail_of_enclosed style k '\x7b' '\x7d' (writtenFields style (k + 1) fields)
      exact ⟨'\x7b', cs, hcs, by decide, by decide⟩

/-! ## Space and separators -/

theorem skipSpace_cons {c : Char} (h : isSpace c = false) (cs : List Char) :
    skipSpace (c :: cs) = c :: cs :=
  List.dropWhile_cons_of_neg (by rw [h]; exact Bool.false_ne_true)

theorem skipSpace_written (style : Style) (k : ℕ) (x : Json) (rest : List Char) :
    skipSpace (written style k x ++ rest) = written style k x ++ rest := by
  obtain ⟨c, cs, hc, hspace, -⟩ := exists_head_of_written style k x
  rw [hc, List.cons_append, skipSpace_cons hspace]

theorem isSpace_of_mem_newline {style : Style} {k : ℕ} {c : Char} (h : c ∈ style.newline k) :
    isSpace c = true := by
  unfold Style.newline at h
  split at h
  · rcases List.mem_cons.mp h with rfl | h
    · rfl
    · rw [List.eq_of_mem_replicate h]
      rfl
  · cases h

theorem skipSpace_newline (style : Style) (k : ℕ) {c : Char} (h : isSpace c = false)
    (cs : List Char) : skipSpace (style.newline k ++ c :: cs) = c :: cs := by
  rw [skipSpace, List.dropWhile_append_of_pos fun _ => isSpace_of_mem_newline]
  exact skipSpace_cons h cs

theorem ended_newline (style : Style) (k : ℕ) {c : Char} (h : c = ']' ∨ c = '\x7d')
    (cs : List Char) : Ended (style.newline k ++ c :: cs) := by
  unfold Style.newline
  split
  · rintro _ ⟨⟩
    decide
  · rintro _ ⟨⟩
    rcases h with rfl | rfl
    · decide
    · decide

theorem exists_gap_of_separator (style : Style) (k : ℕ) :
    ∃ gap, style.separator k = ',' :: gap ∧ ∀ c ∈ gap, isSpace c = true := by
  unfold Style.separator
  split
  · exact ⟨_, rfl, fun _ => isSpace_of_mem_newline⟩
  · exact ⟨[' '], rfl, List.forall_mem_singleton.mpr rfl⟩

theorem exists_tail_of_intercalate (separator : List Char) {item : List Char} {c : Char}
    {cs : List Char} (h : item = c :: cs) (items : List (List Char)) :
    ∃ tail, separator.intercalate (item :: items) = c :: tail := by
  cases items with
  | nil => exact ⟨cs, by rw [List.intercalate_singleton, h]⟩
  | cons next items => exact ⟨_, by rw [List.intercalate_cons_cons, h]; rfl⟩

theorem skipSpace_items {gap item : List Char} (hgap : ∀ c ∈ gap, isSpace c = true) {c : Char}
    {cs : List Char} (h : item = c :: cs) (hc : isSpace c = false) (separator : List Char)
    (items : List (List Char)) (rest : List Char) :
    skipSpace (gap ++ (separator.intercalate (item :: items) ++ rest)) =
      separator.intercalate (item :: items) ++ rest := by
  obtain ⟨tail, htail⟩ := exists_tail_of_intercalate separator h items
  rw [htail, List.cons_append, skipSpace, List.dropWhile_append_of_pos hgap]
  exact skipSpace_cons hc _

theorem intercalate_separator {separator gap : List Char} (h : separator = ',' :: gap)
    (item next : List Char) (items : List (List Char)) (rest : List Char) :
    separator.intercalate (item :: next :: items) ++ rest =
      item ++ ',' :: (gap ++ (separator.intercalate (next :: items) ++ rest)) := by
  rw [List.intercalate_cons_cons, List.append_assoc, List.append_assoc]
  simp only [h, List.cons_append]

theorem length_intercalate {separator gap : List Char} (h : separator = ',' :: gap)
    (item next : List Char) (items : List (List Char)) :
    item.length + (separator.intercalate (next :: items)).length <
      (separator.intercalate (item :: next :: items)).length := by
  rw [List.intercalate_cons_cons, List.length_append, List.length_append, h, List.length_cons]
  omega

theorem ended_cons {c : Char} (h : c ∈ [',', '\n', ']', '\x7d']) (cs : List Char) :
    Ended (c :: cs) := by
  rintro _ ⟨⟩
  exact h

theorem enclosed_of_ne_nil (style : Style) (k : ℕ) (opening closing : Char)
    {items : List (List Char)} (h : items ≠ []) (rest : List Char) :
    style.enclosed k opening closing items ++ rest = opening :: (style.newline (k + 1) ++
      ((style.separator (k + 1)).intercalate items ++ (style.newline k ++ closing :: rest))) := by
  cases items with
  | nil => exact absurd rfl h
  | cons item items =>
      simp only [Style.enclosed, List.cons_append, List.append_assoc, List.nil_append]

theorem length_enclosed (style : Style) (k : ℕ) (opening closing : Char)
    {items : List (List Char)} (h : items ≠ []) :
    ((style.separator (k + 1)).intercalate items).length + 1 <
      (style.enclosed k opening closing items).length := by
  have henclosed := enclosed_of_ne_nil style k opening closing h []
  rw [List.append_nil] at henclosed
  rw [henclosed, List.length_cons, List.length_append, List.length_append, List.length_append,
    List.length_cons]
  omega

theorem skipSpace_first (style : Style) (k : ℕ) {item : List Char} {c : Char} {cs : List Char}
    (h : item = c :: cs) (hc : isSpace c = false) (items : List (List Char)) (rest : List Char) :
    ∃ tail, (style.separator (k + 1)).intercalate (item :: items) ++ rest = c :: tail ∧
      skipSpace (style.newline (k + 1) ++
        ((style.separator (k + 1)).intercalate (item :: items) ++ rest)) = c :: tail := by
  obtain ⟨tail, htail⟩ := exists_tail_of_intercalate (style.separator (k + 1)) h items
  rw [skipSpace_items (fun _ => isSpace_of_mem_newline) h hc, htail]
  exact ⟨tail ++ rest, rfl, rfl⟩

/-! ## Values -/

theorem readValue_plain {c : Char} (h : c ∉ ['\x22', '[', '\x7b']) (cs : List Char)
    (fuel depth : ℕ) : readValue (fuel + 1) depth (c :: cs) = readPlain (c :: cs) := by
  rw [readValue]
  all_goals
    intro rest heq
    obtain ⟨rfl, -⟩ := List.cons.inj heq
    exact h (by decide)

/-- A value is read back from its written form. -/
def ReadBack (style : Style) (depth : ℕ) (x : Json) : Prop :=
  ∀ k fuel rest, (written style k x).length ≤ fuel → Ended rest →
    readValue fuel depth (written style k x ++ rest) = .ok (x, rest)

/-! ### Arrays -/

theorem readElements_last {fuel depth : ℕ} {cs after rest : List Char} {x : Json}
    (hvalue : readValue fuel depth cs = .ok (x, after)) (hskip : skipSpace after = ']' :: rest) :
    readElements (fuel + 1) depth cs = .ok ([x], rest) := by
  rw [readElements, hvalue]
  dsimp only [bind, Except.bind]
  rw [hskip]
  rfl

theorem readElements_next {fuel depth : ℕ} {cs after more rest : List Char} {x : Json}
    {xs : List Json} (hvalue : readValue fuel depth cs = .ok (x, after))
    (hskip : skipSpace after = ',' :: more)
    (hmore : readElements fuel depth (skipSpace more) = .ok (xs, rest)) :
    readElements (fuel + 1) depth cs = .ok (x :: xs, rest) := by
  rw [readElements, hvalue]
  dsimp only [bind, Except.bind]
  rw [hskip]
  show (readElements fuel depth (skipSpace more) >>= fun v => pure (x :: v.1, v.2)) = _
  rw [hmore]
  rfl

theorem readElements_written {style : Style} {depth : ℕ} {xs : List Json} (hsome : xs ≠ [])
    (hxs : ∀ x ∈ xs, ReadBack style depth x) (j k fuel : ℕ) (rest : List Char)
    (hfuel : ((style.separator k).intercalate (writtenElements style k xs)).length < fuel) :
    readElements fuel depth ((style.separator k).intercalate (writtenElements style k xs) ++
      (style.newline j ++ ']' :: rest)) = .ok (xs, rest) := by
  obtain ⟨gap, hseparator, hgap⟩ := exists_gap_of_separator style k
  induction xs generalizing fuel with
  | nil => exact absurd rfl hsome
  | cons x xs ih =>
      obtain ⟨fuel, rfl⟩ : ∃ n, fuel = n + 1 := ⟨fuel - 1, by omega⟩
      obtain ⟨hx, hrest⟩ := List.forall_mem_cons.mp hxs
      -- After the last element no separator follows, so it is read on its own.
      cases xs with
      | nil =>
          rw [writtenElements, writtenElements, List.intercalate_singleton] at hfuel ⊢
          exact readElements_last
            (hx k fuel _ (by omega) (ended_newline style j (Or.inl rfl) rest))
            (skipSpace_newline style j (by decide) rest)
      | cons y ys =>
          have hlength := length_intercalate hseparator (written style k x) (written style k y)
            (writtenElements style k ys)
          obtain ⟨c, cs, hhead, hspace, -⟩ := exists_head_of_written style k y
          rw [writtenElements, writtenElements] at hfuel ⊢
          have hnext := ih (by simp) hrest fuel (by rw [writtenElements]; omega)
          rw [writtenElements] at hnext
          rw [intercalate_separator hseparator]
          refine readElements_next (hx k fuel _ (by omega) (ended_cons (by decide) _))
            (skipSpace_cons (by decide) _) ?_
          rw [skipSpace_items hgap hhead hspace, hnext]

/-! ### Objects -/

/-- After its name, a field is read as its value and what follows that. -/
theorem readFields_named {fuel depth : ℕ} {cs : List Char} {name : String} {asciiOnly : Bool}
    (hstart : skipSpace cs = cs) :
    readFields (fuel + 1) depth (writtenText asciiOnly name.toList ++ ':' :: ' ' :: cs) =
      readValue fuel depth cs >>= fun v => match skipSpace v.2 with
        | '\x7d' :: rest => .ok ([(name, v.1)], rest)
        | ',' :: rest =>
          readFields fuel depth (skipSpace rest) >>= fun w => .ok ((name, v.1) :: w.1, w.2)
        | _ => .error .malformed := by
  have htext : writtenText asciiOnly name.toList ++ ':' :: ' ' :: cs = '\x22' ::
      (name.toList.flatMap (writtenChar asciiOnly) ++ '\x22' :: ':' :: ' ' :: cs) := by
    rw [writtenText, List.cons_append, List.cons_append, List.append_assoc, List.singleton_append]
  have hcolon : skipSpace (':' :: ' ' :: cs) = ':' :: ' ' :: cs := skipSpace_cons (by decide) _
  have hspace : skipSpace (' ' :: cs) = cs := hstart
  rw [htext, readFields, readText_written]
  dsimp only [bind, Except.bind]
  rw [hcolon]
  show (readValue fuel depth (skipSpace (' ' :: cs)) >>= _) = _
  rw [hspace, String.ofList_toList]
  rfl

theorem readFields_last {fuel depth : ℕ} {cs after rest : List Char} {name : String} {x : Json}
    {asciiOnly : Bool} (hstart : skipSpace cs = cs)
    (hvalue : readValue fuel depth cs = .ok (x, after)) (hskip : skipSpace after = '\x7d' :: rest) :
    readFields (fuel + 1) depth (writtenText asciiOnly name.toList ++ ':' :: ' ' :: cs) =
      .ok ([(name, x)], rest) := by
  rw [readFields_named hstart, hvalue]
  dsimp only [bind, Except.bind]
  rw [hskip]
  rfl

theorem readFields_next {fuel depth : ℕ} {cs after more rest : List Char} {name : String} {x : Json}
    {fields : List (String × Json)} {asciiOnly : Bool} (hstart : skipSpace cs = cs)
    (hvalue : readValue fuel depth cs = .ok (x, after)) (hskip : skipSpace after = ',' :: more)
    (hmore : readFields fuel depth (skipSpace more) = .ok (fields, rest)) :
    readFields (fuel + 1) depth (writtenText asciiOnly name.toList ++ ':' :: ' ' :: cs) =
      .ok ((name, x) :: fields, rest) := by
  rw [readFields_named hstart, hvalue]
  dsimp only [bind, Except.bind]
  rw [hskip]
  show (readFields fuel depth (skipSpace more) >>= fun w => .ok ((name, x) :: w.1, w.2)) = _
  rw [hmore]
  rfl

theorem length_writtenField (style : Style) (k : ℕ) (name : String) (x : Json) :
    (written style k x).length < (writtenField style k (name, x)).length := by
  rw [writtenField, List.length_append, List.length_cons, List.length_cons]
  omega

theorem exists_tail_of_writtenField (style : Style) (k : ℕ) (f : String × Json) :
    ∃ cs, writtenField style k f = '\x22' :: cs := by
  obtain ⟨name, x⟩ := f
  exact ⟨_, rfl⟩

theorem readFields_written {style : Style} {depth : ℕ} {fields : Fields} (hsome : fields ≠ [])
    (hfields : ∀ f ∈ fields, ReadBack style depth f.2) (j k fuel : ℕ) (rest : List Char)
    (hfuel : ((style.separator k).intercalate (writtenFields style k fields)).length < fuel) :
    readFields fuel depth ((style.separator k).intercalate (writtenFields style k fields) ++
      (style.newline j ++ '\x7d' :: rest)) = .ok (fields, rest) := by
  obtain ⟨gap, hseparator, hgap⟩ := exists_gap_of_separator style k
  induction fields generalizing fuel with
  | nil => exact absurd rfl hsome
  | cons f fields ih =>
      obtain ⟨name, x⟩ := f
      obtain ⟨fuel, rfl⟩ : ∃ n, fuel = n + 1 := ⟨fuel - 1, by omega⟩
      have hx : ReadBack style depth x := hfields _ List.mem_cons_self
      have hrest := (List.forall_mem_cons.mp hfields).2
      have hfield := length_writtenField style k name x
      cases fields with
      | nil =>
          rw [writtenFields, writtenFields, List.intercalate_singleton] at hfuel ⊢
          rw [writtenField, List.append_assoc]
          exact readFields_last (skipSpace_written style k x _)
            (hx k fuel _ (by omega) (ended_newline style j (Or.inr rfl) rest))
            (skipSpace_newline style j (by decide) rest)
      | cons g gs =>
          have hlength := length_intercalate hseparator (writtenField style k (name, x))
            (writtenField style k g) (writtenFields style k gs)
          rw [writtenFields, writtenFields] at hfuel ⊢
          have hnext := ih (by simp) hrest fuel (by rw [writtenFields]; omega)
          rw [writtenFields] at hnext
          rw [intercalate_separator hseparator, writtenField, List.append_assoc]
          refine readFields_next (skipSpace_written style k x _)
            (hx k fuel _ (by omega) (ended_cons (by decide) _)) (skipSpace_cons (by decide) _) ?_
          obtain ⟨cs, hhead⟩ := exists_tail_of_writtenField style k g
          rw [skipSpace_items hgap hhead (by decide), hnext]

/-! ### All values -/

theorem readBack_of_plain {style : Style} {depth : ℕ} {x : Json}
    (hhead : ∀ k, ∃ c cs, written style k x = c :: cs ∧ plainHead c = true)
    (hread : ∀ k rest, Ended rest → readPlain (written style k x ++ rest) = .ok (x, rest)) :
    ReadBack style depth x := by
  intro k fuel rest hfuel hrest
  obtain ⟨c, cs, hc, hplain⟩ := hhead k
  have h := hread k rest hrest
  have hnot : c ∉ ['\x22', '[', '\x7b'] := by
    have hall := notMem_of_plainHead hplain
    simp only [List.mem_cons, not_or] at hall
    simp [hall]
  rw [hc, List.length_cons] at hfuel
  rw [hc, List.cons_append] at h ⊢
  obtain ⟨fuel, rfl⟩ : ∃ n, fuel = n + 1 := ⟨fuel - 1, by omega⟩
  rw [readValue_plain hnot, h]

theorem readBack_str (style : Style) (depth : ℕ) (s : String) : ReadBack style depth (.str s) := by
  intro k fuel rest hfuel _
  have htext : written style k (.str s) ++ rest =
      '\x22' :: (s.toList.flatMap (writtenChar style.asciiOnly) ++ '\x22' :: rest) := by
    rw [written, writtenText, List.cons_append, List.cons_append, List.append_assoc,
      List.singleton_append]
  obtain ⟨fuel, rfl⟩ : ∃ n, fuel = n + 1 := by
    refine ⟨fuel - 1, ?_⟩
    rw [written, writtenText, List.cons_append, List.length_cons] at hfuel
    omega
  rw [htext, readValue, readText_written]
  show Except.ok (Json.str (String.ofList s.toList), rest) = _
  rw [String.ofList_toList]

theorem readValue_array {fuel depth : ℕ} {c : Char} {cs tail rest : List Char} {xs : List Json}
    (hskip : skipSpace cs = c :: tail) (hc : c ≠ ']')
    (h : readElements fuel depth (c :: tail) = .ok (xs, rest)) :
    readValue (fuel + 1) (depth + 1) ('[' :: cs) = .ok (.arr xs, rest) := by
  rw [readValue, if_neg (Nat.succ_ne_zero depth), hskip]
  split
  · rename_i heq
    exact absurd (List.cons.inj heq).1 hc
  · rw [Nat.add_sub_cancel, h]
    rfl

theorem readValue_object {fuel depth : ℕ} {c : Char} {cs tail rest : List Char}
    {fields : List (String × Json)} (hskip : skipSpace cs = c :: tail) (hc : c ≠ '\x7d')
    (h : readFields fuel depth (c :: tail) = .ok (fields, rest)) :
    readValue (fuel + 1) (depth + 1) ('\x7b' :: cs) =
      .ok (.obj (Fields.ofWritten fields), rest) := by
  rw [readValue, if_neg (Nat.succ_ne_zero depth), hskip]
  split
  · rename_i heq
    exact absurd (List.cons.inj heq).1 hc
  · rw [Nat.add_sub_cancel, h]
    rfl

theorem readValue_empty (fuel depth : ℕ) (rest : List Char) :
    readValue (fuel + 1) (depth + 1) ('[' :: ']' :: rest) = .ok (.arr [], rest) ∧
      readValue (fuel + 1) (depth + 1) ('\x7b' :: '\x7d' :: rest) = .ok (.obj [], rest) := by
  have hbracket : skipSpace (']' :: rest) = ']' :: rest := skipSpace_cons (by decide) rest
  have hbrace : skipSpace ('\x7d' :: rest) = '\x7d' :: rest := skipSpace_cons (by decide) rest
  constructor
  · rw [readValue, if_neg (Nat.succ_ne_zero depth), hbracket]
    rfl
  · rw [readValue, if_neg (Nat.succ_ne_zero depth), hbrace]
    rfl

theorem exists_fuel {fuel n : ℕ} (h : n < fuel) : ∃ m, fuel = m + 1 ∧ n ≤ m :=
  ⟨fuel - 1, by omega, by omega⟩

theorem readBack_arr {style : Style} {depth : ℕ} {xs : List Json}
    (hxs : ∀ x ∈ xs, ReadBack style depth x) : ReadBack style (depth + 1) (.arr xs) := by
  intro k fuel rest hfuel hrest
  rw [written] at hfuel ⊢
  cases xs with
  | nil =>
      obtain ⟨fuel, rfl, -⟩ := exists_fuel ((Nat.succ_le_succ (Nat.zero_le 1)).trans hfuel)
      exact (readValue_empty fuel depth rest).1
  | cons x xs =>
      have hsome : writtenElements style (k + 1) (x :: xs) ≠ [] := by simp [writtenElements]
      obtain ⟨fuel, rfl, hmore⟩ := exists_fuel ((length_enclosed style k '[' ']' hsome).trans_le hfuel)
      obtain ⟨c, cs, hhead, hspace, hc⟩ := exists_head_of_written style (k + 1) x
      have hread := readElements_written (by simp) hxs k (k + 1) fuel rest hmore
      rw [enclosed_of_ne_nil style k '[' ']' hsome]
      rw [writtenElements] at hread ⊢
      obtain ⟨tail, htail, hskip⟩ := skipSpace_first style k hhead hspace
        (writtenElements style (k + 1) xs) (style.newline k ++ ']' :: rest)
      rw [htail] at hread
      exact readValue_array hskip hc hread

theorem readBack_obj {style : Style} {depth : ℕ} {fields : Fields} (unique : fields.names.Nodup)
    (hfields : ∀ f ∈ fields, ReadBack style depth f.2) :
    ReadBack style (depth + 1) (.obj fields) := by
  intro k fuel rest hfuel hrest
  rw [written] at hfuel ⊢
  cases fields with
  | nil =>
      obtain ⟨fuel, rfl, -⟩ := exists_fuel ((Nat.succ_le_succ (Nat.zero_le 1)).trans hfuel)
      exact (readValue_empty fuel depth rest).2
  | cons f fields =>
      have hsome : writtenFields style (k + 1) (f :: fields) ≠ [] := by simp [writtenFields]
      obtain ⟨fuel, rfl, hmore⟩ :=
        exists_fuel ((length_enclosed style k '\x7b' '\x7d' hsome).trans_le hfuel)
      obtain ⟨cs, hhead⟩ := exists_tail_of_writtenField style (k + 1) f
      have hread := readFields_written (by simp) hfields k (k + 1) fuel rest hmore
      rw [enclosed_of_ne_nil style k '\x7b' '\x7d' hsome]
      rw [writtenFields] at hread ⊢
      obtain ⟨tail, htail, hskip⟩ := skipSpace_first style k hhead (by decide)
        (writtenFields style (k + 1) fields) (style.newline k ++ '\x7d' :: rest)
      rw [htail] at hread
      rw [readValue_object hskip (by decide) hread, Fields.ofWritten_of_nodup unique]

/-- Whatever can be read is read back from its written form. -/
theorem Readable.readBack {depth : ℕ} {x : Json} (h : Readable depth x) (style : Style) :
    ReadBack style depth x := by
  induction h with
  | null =>
      exact readBack_of_plain (fun _ => ⟨_, _, rfl, rfl⟩) fun _ _ _ => rfl
  | bool b =>
      cases b with
      | true => exact readBack_of_plain (fun _ => ⟨_, _, rfl, rfl⟩) fun _ _ _ => rfl
      | false => exact readBack_of_plain (fun _ => ⟨_, _, rfl, rfl⟩) fun _ _ _ => rfl
  | int short =>
      exact readBack_of_plain (fun _ => exists_plainHead_of_int _)
        fun _ _ hrest => readPlain_int short hrest
  | float x =>
      exact readBack_of_plain (fun _ => exists_plainHead_of_float x)
        fun _ _ hrest => readPlain_float x hrest
  | str s => exact readBack_str style _ s
  | arr _ ih => exact readBack_arr ih
  | obj unique _ ih => exact readBack_obj unique ih

/-! ## Whole texts -/

/-- The written form of a value that can be read is read as that value. -/
theorem parse_written [Nesting] {x : Json} (h : Readable Nesting.limit x) (style : Style) :
    parse (written style 0 x) = .ok x := by
  have hread := h.readBack style 0 (2 * (written style 0 x).length + 2) [] (by omega)
    (fun _ hc => by cases hc)
  have hskip := skipSpace_written style 0 x []
  rw [List.append_nil] at hread hskip
  rw [parse, hskip, hread]
  rfl

theorem fromUTF8?_toUTF8 (s : String) : String.fromUTF8? s.toUTF8 = some s := by
  unfold String.fromUTF8? String.toUTF8
  rw [dif_pos s.isValidUTF8]
  rfl

theorem ofFile_write [Nesting] {x : Json} (h : Readable Nesting.limit x) (style : Style) :
    ofFile (x.write style).toUTF8 = .ok x := by
  rw [ofFile, fromUTF8?_toUTF8]
  dsimp only
  rw [write, String.toList_ofList, parse_written h]
  rfl

end CardImport.Json
