import CardImport.Proofs.Json.Reread

/-!
# Why the reader stops

The reader goes through a text from its start, and what it leaves is the end of it. It stops for
three reasons: a fault of syntax, a whole number of too many digits, or too many arrays and objects
inside each other. The last two can be seen in the text: it has so many digits in a row, or opens
more brackets than the limit. So a text without either is read, or found to be no JSON.
-/

namespace CardImport.Json

/-! ## Reasons -/

def opened (cs : List Char) : ℕ := cs.countP fun c => c = '[' ∨ c = '\x7b'

/-- So many digits stand in a row somewhere in a text. -/
def HasDigits (n : ℕ) (cs : List Char) : Prop :=
  ∃ digits, digits <:+: cs ∧ digits.length = n ∧ ∀ c ∈ digits, isAsciiDigit c = true

/-- What a text has to do with an error that it is read with, down to a depth. -/
def Accounts (depth : ℕ) (cs : List Char) : JsonError → Prop
  | .malformed => True
  | .tooManyDigits n => digitLimit < n ∧ HasDigits n cs
  | .tooDeep _ => depth < opened cs

theorem Accounts.mono {depth : ℕ} {cs cs' : List Char} {e : JsonError} (h : Accounts depth cs e)
    (hcs : cs <:+ cs') : Accounts depth cs' e := by
  cases e with
  | malformed => trivial
  | tooManyDigits n =>
      obtain ⟨hlimit, digits, hdigits, hlength, hall⟩ := h
      exact ⟨hlimit, digits, hdigits.trans hcs.isInfix, hlength, hall⟩
  | tooDeep c => exact Nat.lt_of_lt_of_le h (hcs.sublist.countP_le)

/-- An array or an object takes one level and opens one bracket. -/
theorem Accounts.inside {depth : ℕ} {c : Char} {cs : List Char} {e : JsonError}
    (h : Accounts (depth - 1) cs e) (hc : c = '[' ∨ c = '\x7b') : Accounts depth (c :: cs) e := by
  cases e with
  | malformed => trivial
  | tooManyDigits n => exact Accounts.mono (e := .tooManyDigits n) h (List.suffix_cons c cs)
  | tooDeep innermost =>
      have hcount : opened (c :: cs) = opened cs + 1 := by
        simp [opened, hc]
      have hdeep : depth - 1 < opened cs := h
      show depth < opened (c :: cs)
      omega

/-! ## Readings -/

/-- Whether a reading leaves the end of the text, or an error that the text accounts for. -/
def Explained {α : Type} (depth : ℕ) (cs : List Char) : Reading α → Prop
  | .ok (_, rest) => rest <:+ cs
  | .error e => Accounts depth cs e

variable {α β : Type} {depth : ℕ} {cs cs' rest : List Char}

theorem explained_malformed : Explained depth cs (.error .malformed : Reading α) := trivial

theorem Explained.mono {r : Reading α} (h : Explained depth cs r) (hcs : cs <:+ cs') :
    Explained depth cs' r := by
  cases r with
  | error e => exact Accounts.mono h hcs
  | ok p => exact List.IsSuffix.trans h hcs

theorem Explained.bind {r : Reading α} {f : α × List Char → Except JsonError (β × List Char)} (h : Explained depth cs r)
    (hf : ∀ x rest, r = .ok (x, rest) → Explained depth rest (f (x, rest))) :
    Explained depth cs (Except.bind r f) := by
  cases r with
  | error e => exact h
  | ok p => exact (hf p.1 p.2 rfl).mono h

theorem Explained.map {r : Reading α} {f : α × List Char → β × List Char}
    (h : Explained depth cs r) (hf : ∀ p, (f p).2 = p.2) : Explained depth cs (r.map f) := by
  cases r with
  | error e => exact h
  | ok p =>
      show (f p).2 <:+ cs
      rw [hf]
      exact h

/-! ## Texts and numbers -/

theorem explained_readPieces (cs : List Char) : Explained depth cs (readPieces cs) := by
  have hcons : ∀ {p : Piece} {cs : List Char}, Explained depth cs (readPieces cs) →
      Explained depth cs (consPiece p (readPieces cs)) := by
    intro p cs h
    cases hread : readPieces cs with
    | error e =>
        rw [hread] at h
        exact h
    | ok r =>
        rw [hread] at h
        exact h
  fun_induction readPieces cs with
  | case1 => exact explained_malformed
  | case2 a b c d rest n _ ih => exact (hcons ih).mono ⟨['\\', 'u', a, b, c, d], rfl⟩
  | case3 => exact explained_malformed
  | case4 c rest _ x _ ih => exact (hcons ih).mono ⟨['\\', c], rfl⟩
  | case5 => exact explained_malformed
  | case6 rest => exact List.suffix_cons _ rest
  | case7 => exact explained_malformed
  | case8 c rest _ _ _ _ ih => exact (hcons ih).mono (List.suffix_cons c rest)

theorem explained_readText (cs : List Char) : Explained depth cs (readText cs) :=
  (explained_readPieces cs).map fun _ => rfl

theorem skipSpace_suffix (cs : List Char) : skipSpace cs <:+ cs := List.dropWhile_suffix _

theorem wholeRun_append_rest (cs : List Char) : (wholeRun cs).1 ++ (wholeRun cs).2 = cs := by
  unfold wholeRun
  split
  · rfl
  · exact List.takeWhile_append_dropWhile

theorem isAsciiDigit_of_mem_wholeRun {c : Char} (h : c ∈ (wholeRun cs).1) :
    isAsciiDigit c = true := by
  unfold wholeRun at h
  split at h
  · rw [List.mem_singleton.mp h]
    rfl
  · exact List.mem_takeWhile_imp h

theorem fractionRun_suffix (cs : List Char) : (fractionRun cs).2 <:+ cs := by
  unfold fractionRun
  split
  · split
    · exact (List.dropWhile_suffix _).trans (List.suffix_cons _ _)
    · exact List.suffix_rfl
  · exact List.suffix_rfl

theorem exponentRun?_suffix {e : ℤ} (h : exponentRun? cs = some (e, rest)) : rest <:+ cs := by
  unfold exponentRun? at h
  split at h
  · rename_i c later
    have hsign : (Number.splitSign later).2 <:+ later := by
      unfold Number.splitSign
      split
      · exact List.suffix_cons _ _
      · exact List.suffix_cons _ _
      · exact List.suffix_rfl
    split at h
    · dsimp only at h
      split at h
      · cases h
      · cases h
        exact ((List.dropWhile_suffix _).trans hsign).trans (List.suffix_cons c later)
    · cases h
  · cases h

/-- Only the digits before a point are counted. -/
theorem explained_readUnsigned (negative : Bool) (cs : List Char) :
    Explained depth cs (readUnsigned negative cs) := by
  have hwhole : (wholeRun cs).2 <:+ cs := ⟨(wholeRun cs).1, wholeRun_append_rest cs⟩
  have hrest : (fractionRun (wholeRun cs).2).2 <:+ cs := (fractionRun_suffix _).trans hwhole
  unfold readUnsigned
  dsimp only
  split
  · exact explained_malformed
  · split
    · rename_i hexponent
      exact (exponentRun?_suffix hexponent).trans hrest
    · split
      · exact hrest
      · split
        · rename_i hlimit
          have hinfix : (wholeRun cs).1 <:+: cs :=
            List.IsPrefix.isInfix ⟨(wholeRun cs).2, wholeRun_append_rest cs⟩
          exact ⟨hlimit, _, hinfix, rfl, fun c hc => isAsciiDigit_of_mem_wholeRun hc⟩
        · exact hrest

theorem dropWord?_suffix {word : List Char} (h : dropWord? word cs = some rest) : rest <:+ cs := by
  fun_induction dropWord? word cs with
  | case1 => cases h; exact List.suffix_rfl
  | case2 ws c cs ih => exact (ih h).trans (List.suffix_cons _ _)
  | case3 => cases h
  | case4 => cases h

theorem readWord?_suffix {x : Json} (h : readWord? cs = some (x, rest)) : rest <:+ cs := by
  obtain ⟨word, -, h⟩ := List.exists_of_findSome?_eq_some h
  obtain ⟨rest', hdrop, h⟩ := Option.map_eq_some_iff.mp h
  cases h
  exact dropWord?_suffix hdrop

theorem explained_readPlain (cs : List Char) : Explained depth cs (readPlain cs) := by
  unfold readPlain
  split
  · rename_i hword
    exact readWord?_suffix hword
  · split
    · exact (explained_readUnsigned true _).mono (List.suffix_cons _ _)
    · exact explained_readUnsigned false cs

/-! ## Values -/

/-- What the three readers come to, with some fuel. -/
structure ExplainsReading (fuel : ℕ) : Prop where
  value : ∀ depth cs, Explained depth cs (readValue fuel depth cs)
  elements : ∀ depth cs, Explained depth cs (readElements fuel depth cs)
  fields : ∀ depth cs, Explained depth cs (readFields fuel depth cs)

variable {fuel : ℕ}

/-- What is read inside of an array or an object is read behind its bracket, one level deeper. -/
theorem Explained.inside {r : Except JsonError (α × List Char)} {c : Char} {inner : List Char}
    (h : Explained (depth - 1) inner r) (hinner : inner <:+ cs) (hc : c = '[' ∨ c = '\x7b') :
    Explained depth (c :: cs) r := by
  cases r with
  | error e => exact (Accounts.mono h hinner).inside hc
  | ok p => exact (List.IsSuffix.trans h hinner).trans (List.suffix_cons c cs)

theorem explained_tooDeep (c : Char) (cs : List Char) (hc : c = '[' ∨ c = '\x7b')
    (innermost : Container) : Explained 0 (c :: cs) (.error (.tooDeep innermost) : Reading α) := by
  show 0 < opened (c :: cs)
  simp [opened, hc]

theorem explained_readValue (ih : ExplainsReading fuel) (depth : ℕ) (cs : List Char) :
    Explained depth cs (readValue (fuel + 1) depth cs) := by
  -- Behind an opening bracket comes its end or what it holds, with blanks before it.
  have hinside : ∀ {c : Char} {later inner : List Char} {r : Reading Json},
      (c = '[' ∨ c = '\x7b') → skipSpace later = inner → Explained (depth - 1) inner r →
      Explained depth (c :: later) r := by
    intro c later inner r hc hskip hr
    refine hr.inside ?_ hc
    rw [← hskip]
    exact skipSpace_suffix later
  unfold readValue
  split
  · refine Explained.mono ?_ (List.suffix_cons _ _)
    exact (explained_readText _).map fun _ => rfl
  · split
    · rename_i hzero
      rw [hzero]
      exact explained_tooDeep _ _ (Or.inl rfl) _
    · split
      · rename_i hend
        exact hinside (Or.inl rfl) hend (List.suffix_cons _ _)
      · exact hinside (Or.inl rfl) rfl ((ih.elements _ _).map fun _ => rfl)
  · split
    · rename_i hzero
      rw [hzero]
      exact explained_tooDeep _ _ (Or.inr rfl) _
    · split
      · rename_i hend
        exact hinside (Or.inr rfl) hend (List.suffix_cons _ _)
      · exact hinside (Or.inr rfl) rfl ((ih.fields _ _).map fun _ => rfl)
  · exact explained_readPlain _

theorem explained_readElements (ih : ExplainsReading fuel) (depth : ℕ) (cs : List Char) :
    Explained depth cs (readElements (fuel + 1) depth cs) := by
  unfold readElements
  refine (ih.value depth cs).bind fun x rest _ => ?_
  have hrest := skipSpace_suffix rest
  dsimp only
  split
  · rename_i hend
    rw [hend] at hrest
    exact (List.suffix_cons _ _).trans hrest
  · rename_i later hnext
    rw [hnext] at hrest
    have hlater := (skipSpace_suffix later).trans ((List.suffix_cons _ _).trans hrest)
    exact Explained.mono (Explained.bind (ih.elements _ _) fun xs rest' _ => List.suffix_rfl) hlater
  · exact explained_malformed

theorem explained_readFields (ih : ExplainsReading fuel) (depth : ℕ) (cs : List Char) :
    Explained depth cs (readFields (fuel + 1) depth cs) := by
  unfold readFields
  split
  · rename_i later
    -- What is read later is an end of the text, so what explains a failure there explains it here.
    refine Explained.mono ?_ (List.suffix_cons _ later)
    refine (explained_readText later).bind fun name rest _ => ?_
    have hrest := skipSpace_suffix rest
    dsimp only
    split
    · rename_i value hcolon
      rw [hcolon] at hrest
      have hvalue := (skipSpace_suffix value).trans ((List.suffix_cons _ _).trans hrest)
      refine Explained.mono ?_ hvalue
      refine (ih.value depth _).bind fun x rest' _ => ?_
      have hrest' := skipSpace_suffix rest'
      dsimp only
      split
      · rename_i hend
        rw [hend] at hrest'
        exact (List.suffix_cons _ _).trans hrest'
      · rename_i next hnext
        rw [hnext] at hrest'
        have hnext := (skipSpace_suffix next).trans ((List.suffix_cons _ _).trans hrest')
        exact Explained.mono (Explained.bind (ih.fields _ _) fun fs rest'' _ => List.suffix_rfl)
          hnext
      · exact explained_malformed
    · exact explained_malformed
  · exact explained_malformed

theorem explainsReading (fuel : ℕ) : ExplainsReading fuel := by
  induction fuel with
  | zero =>
      refine ⟨?_, ?_, ?_⟩
      · exact fun _ _ => explained_malformed
      · exact fun _ _ => explained_malformed
      · exact fun _ _ => explained_malformed
  | succ fuel ih =>
      exact ⟨explained_readValue ih, explained_readElements ih, explained_readFields ih⟩

/-- A text accounts for the error that it is read with. -/
theorem accounts_of_parse [Nesting] {e : JsonError} (h : parse cs = .error e) :
    Accounts Nesting.limit cs e := by
  have hread := (explainsReading (2 * cs.length + 2)).value Nesting.limit (skipSpace cs)
  unfold parse at h
  cases hvalue : readValue (2 * cs.length + 2) Nesting.limit (skipSpace cs) with
  | error e' =>
      rw [hvalue] at h hread
      cases h
      exact Accounts.mono hread (skipSpace_suffix cs)
  | ok p =>
      rw [hvalue] at h
      change (if (skipSpace p.2).isEmpty then _ else _) = _ at h
      split at h
      · cases h
      · cases h
        trivial

/-! ## Whole numbers that are too long -/

theorem readUnsigned_tooLong {negative : Bool} {digits : List Char} (h : Whole digits)
    (hlimit : digitLimit < digits.length) (hrest : Ended rest) :
    readUnsigned negative (digits ++ rest) = .error (.tooManyDigits digits.length) := by
  have hpoint : ∀ cs, rest ≠ '.' :: cs := fun _ => hrest.head_ne (by decide)
  rw [readUnsigned, wholeRun_append h hrest.noDigit]
  dsimp only
  rw [fractionRun_of_ne hpoint]
  dsimp only
  rw [if_neg (by rw [List.isEmpty_iff]; exact h.ne_nil), exponentRun?_of_ended hrest]
  dsimp only
  rw [if_neg (by decide), if_pos hlimit]

/-- A whole number that is too long is not read, though it is JSON. -/
theorem parse_tooLong [Nesting] {digits : List Char} (h : Whole digits)
    (hlimit : digitLimit < digits.length) :
    parse digits = .error (.tooManyDigits digits.length) := by
  have hread : readUnsigned false (digits ++ []) = _ := readUnsigned_tooLong h hlimit nofun
  rw [List.append_nil] at hread
  cases digits with
  | nil => exact absurd rfl h.ne_nil
  | cons c cs =>
      have hc : c.isDigit = true := h.isDigit c List.mem_cons_self
      have hne : ∀ w, w.isDigit = false → c ≠ w := by
        rintro w hw rfl
        cases hw.symm.trans hc
      have hskip : skipSpace (c :: cs) = c :: cs := by
        simp [skipSpace, isSpace, hne]
      have hplain : readPlain (c :: cs) = readUnsigned false (c :: cs) :=
        @readPlain_signed false c hc cs
      rw [parse, hskip, readValue_plain (by simp [hne]), hplain, hread]
      rfl

end CardImport.Json
