import CardImport.Json.File
import CardImport.Proofs.Except
import CardImport.Proofs.Number.Layout

/-!
# Values that can be read

A value that was read has no more nesting than was allowed, whole numbers within the limit of
digits, and objects with each name once.
-/

namespace CardImport

/-! ## Names of fields -/

namespace Fields

def names (fields : Fields) : List String := fields.map Prod.fst

theorem set_of_notMem {fields : Fields} {name : String} (h : name ∉ fields.names) (value : Json) :
    fields.set name value = fields ++ [(name, value)] := by
  induction fields with
  | nil => rfl
  | cons f rest ih =>
      have hne : f.1 ≠ name := fun heq => h (List.mem_cons.mpr (Or.inl heq.symm))
      have hrest : name ∉ names rest := fun hmem => h (List.mem_cons_of_mem _ hmem)
      rw [set, if_neg hne, ih hrest, List.cons_append]

theorem names_set_of_mem {fields : Fields} {name : String} (h : name ∈ fields.names)
    (value : Json) : (fields.set name value).names = fields.names := by
  induction fields with
  | nil => cases h
  | cons f rest ih =>
      rw [set]
      split
      · rfl
      · rename_i hne
        have hrest : name ∈ names rest := (List.mem_cons.mp h).resolve_left (Ne.symm hne)
        exact congrArg (f.1 :: ·) (ih hrest)

theorem nodup_names_set {fields : Fields} (h : fields.names.Nodup) (name : String) (value : Json) :
    (fields.set name value).names.Nodup := by
  by_cases hname : name ∈ fields.names
  · rwa [names_set_of_mem hname]
  · rw [set_of_notMem hname, names, List.map_append]
    exact List.nodup_append_comm.mp (List.nodup_cons.mpr ⟨hname, h⟩)

theorem mem_set {fields : Fields} {name : String} {value : Json} {f : String × Json}
    (h : f ∈ fields.set name value) : f = (name, value) ∨ f ∈ fields := by
  induction fields with
  | nil => exact Or.inl (List.mem_singleton.mp h)
  | cons g rest ih =>
      rw [set] at h
      split at h
      · rename_i heq
        rcases List.mem_cons.mp h with rfl | h
        · exact Or.inl (by rw [heq])
        · exact Or.inr (List.mem_cons_of_mem _ h)
      · rcases List.mem_cons.mp h with rfl | h
        · exact Or.inr List.mem_cons_self
        · exact (ih h).imp_right (List.mem_cons_of_mem _)

theorem nodup_names_ofWritten (written : List (String × Json)) :
    (ofWritten written).names.Nodup := by
  have hfold : ∀ fields : Fields, fields.names.Nodup →
      (written.foldl (fun fields p => set p.1 p.2 fields) fields).names.Nodup := by
    induction written with
    | nil => exact fun _ h => h
    | cons p rest ih => exact fun fields h => ih _ (nodup_names_set h _ _)
  exact hfold [] List.nodup_nil

theorem mem_ofWritten {written : List (String × Json)} {f : String × Json}
    (h : f ∈ ofWritten written) : f ∈ written := by
  have hfold : ∀ fields : Fields,
      f ∈ written.foldl (fun fields p => set p.1 p.2 fields) fields → f ∈ fields ∨ f ∈ written := by
    clear h
    induction written with
    | nil => exact fun _ h => Or.inl h
    | cons p rest ih =>
        intro fields h
        rcases ih _ h with h | h
        · rcases mem_set h with rfl | h
          · exact Or.inr List.mem_cons_self
          · exact Or.inl h
        · exact Or.inr (List.mem_cons_of_mem _ h)
  exact (hfold [] h).resolve_left List.not_mem_nil

/-- Fields with different names are those of the object that they were written for. -/
theorem ofWritten_of_nodup {fields : Fields} (h : fields.names.Nodup) :
    ofWritten fields = fields := by
  have hfold : ∀ before rest : Fields, (before ++ rest).names.Nodup →
      rest.foldl (fun fields p => set p.1 p.2 fields) before = before ++ rest := by
    intro before rest
    induction rest generalizing before with
    | nil => exact fun _ => (List.append_nil before).symm
    | cons p rest ih =>
        intro h
        have hname : p.1 ∉ before.names := by
          rw [names, List.map_append, List.nodup_append] at h
          exact fun hmem => h.2.2 p.1 hmem p.1 List.mem_cons_self rfl
        rw [List.foldl_cons, set_of_notMem hname, ih, List.append_assoc]
        · rfl
        · rw [List.append_assoc]
          exact h
  exact hfold [] fields h

end Fields

/-- Whether a whole number has no more digits than the limit. -/
def Number.Short (n : ℤ) : Prop := (Nat.toDigits 10 n.natAbs).length ≤ digitLimit

instance (n : ℤ) : Decidable (Number.Short n) := Nat.decLe _ _

namespace Json

/-- The values that can be read within a depth of nesting. -/
inductive Readable : ℕ → Json → Prop
  | null {depth : ℕ} : Readable depth .null
  | bool {depth : ℕ} (b : Bool) : Readable depth (.bool b)
  | int {depth : ℕ} {n : ℤ} (short : Number.Short n) : Readable depth (.int n)
  | float {depth : ℕ} (x : Binary64) : Readable depth (.float x)
  | str {depth : ℕ} (s : String) : Readable depth (.str s)
  | arr {depth : ℕ} {elements : List Json} (readable : ∀ x ∈ elements, Readable depth x) :
      Readable (depth + 1) (.arr elements)
  | obj {depth : ℕ} {fields : Fields} (unique : fields.names.Nodup)
      (readable : ∀ f ∈ fields, Readable depth f.2) : Readable (depth + 1) (.obj fields)

/-! ## What is read -/

theorem readable_of_readWord? {cs rest : List Char} {x : Json} (h : readWord? cs = some (x, rest))
    (depth : ℕ) : Readable depth x := by
  obtain ⟨word, hword, h⟩ := List.exists_of_findSome?_eq_some h
  obtain ⟨rest', -, h⟩ := Option.map_eq_some_iff.mp h
  cases h
  have hall : ∀ p ∈ words, Readable depth p.2 := by
    simp only [words, List.forall_mem_cons]
    exact ⟨.null, .bool _, .bool _, .float _, .float _, .float _, fun _ h => absurd h List.not_mem_nil⟩
  exact hall word hword

theorem isDigit_of_mem_wholeRun {cs : List Char} {c : Char} (h : c ∈ (wholeRun cs).1) :
    c.isDigit = true := by
  unfold wholeRun at h
  split at h
  · rw [List.mem_singleton.mp h]
    rfl
  · exact isDigit_of_isAsciiDigit (List.mem_takeWhile_imp h)

theorem length_toDigits_ofDigitChars_le {cs : List Char} (h : ∀ c ∈ cs, c.isDigit = true)
    (hsome : cs ≠ []) : (Nat.toDigits 10 (Nat.ofDigitChars 10 cs 0)).length ≤ cs.length :=
  (Nat.length_toDigits_le_iff (by decide) (List.length_pos_iff.mpr hsome)).mpr (ofDigitChars_lt h)

theorem readable_of_readUnsigned {negative : Bool} {cs rest : List Char} {x : Json}
    (h : readUnsigned negative cs = .ok (x, rest)) (depth : ℕ) : Readable depth x := by
  unfold readUnsigned at h
  dsimp only at h
  split at h
  · cases h
  · rename_i hsome
    split at h
    · cases h
      exact .float _
    · split at h
      · cases h
        exact .float _
      · rename_i hpart
        split at h
        · cases h
        · rename_i hlimit
          cases h
          have hnil : (fractionRun (wholeRun cs).2).1 = [] := by simpa using hpart
          refine .int ?_
          rw [Number.Short, hnil, List.append_nil]
          have habs : ∀ v : ℕ, (if negative then -(v : ℤ) else v).natAbs = v := by
            intro v
            split <;> simp
          rw [habs]
          exact (length_toDigits_ofDigitChars_le (fun _ => isDigit_of_mem_wholeRun)
            (by simpa using hsome)).trans (Nat.not_lt.mp hlimit)

theorem readable_of_readPlain {cs rest : List Char} {x : Json} (h : readPlain cs = .ok (x, rest))
    (depth : ℕ) : Readable depth x := by
  unfold readPlain at h
  split at h
  · rename_i reading hword
    cases h
    exact readable_of_readWord? hword depth
  · split at h
    · exact readable_of_readUnsigned h depth
    · exact readable_of_readUnsigned h depth

/-- What the three readers read, with as much fuel as they may need. -/
structure ReadsReadable (fuel : ℕ) : Prop where
  value : ∀ {depth cs x rest}, readValue fuel depth cs = .ok (x, rest) → Readable depth x
  elements : ∀ {depth cs xs rest}, readElements fuel depth cs = .ok (xs, rest) →
    ∀ x ∈ xs, Readable depth x
  fields : ∀ {depth cs fs rest}, readFields fuel depth cs = .ok (fs, rest) →
    ∀ f ∈ fs, Readable depth f.2

theorem readable_of_readValue {fuel : ℕ} (ih : ReadsReadable fuel) {depth : ℕ} {cs rest : List Char}
    {x : Json} (h : readValue (fuel + 1) depth cs = .ok (x, rest)) : Readable depth x := by
  unfold readValue at h
  split at h
  · obtain ⟨_, -, h⟩ := exists_of_map_eq_ok h
    cases h
    exact .str _
  -- Each bracket uses up one level, and with none left nothing is read.
  · cases depth with
    | zero => cases h
    | succ depth =>
        rw [if_neg (Nat.succ_ne_zero depth)] at h
        split at h
        · cases h
          exact .arr fun _ h => absurd h List.not_mem_nil
        · obtain ⟨_, hread, h⟩ := exists_of_map_eq_ok h
          cases h
          exact .arr (ih.elements hread)
  · cases depth with
    | zero => cases h
    | succ depth =>
        rw [if_neg (Nat.succ_ne_zero depth)] at h
        split at h
        · cases h
          exact .obj List.nodup_nil fun _ h => absurd h List.not_mem_nil
        · obtain ⟨_, hread, h⟩ := exists_of_map_eq_ok h
          cases h
          exact .obj (Fields.nodup_names_ofWritten _)
            fun f hf => ih.fields hread f (Fields.mem_ofWritten hf)
  · exact readable_of_readPlain h depth

theorem readable_of_readElements {fuel : ℕ} (ih : ReadsReadable fuel) {depth : ℕ}
    {cs rest : List Char} {xs : List Json}
    (h : readElements (fuel + 1) depth cs = .ok (xs, rest)) : ∀ x ∈ xs, Readable depth x := by
  unfold readElements at h
  obtain ⟨⟨x, rest'⟩, hvalue, h⟩ := exists_of_bind_eq_ok h
  dsimp only at h
  split at h
  · cases h
    exact List.forall_mem_singleton.mpr (ih.value hvalue)
  · obtain ⟨⟨xs', rest''⟩, helements, h⟩ := exists_of_bind_eq_ok h
    cases h
    exact List.forall_mem_cons.mpr ⟨ih.value hvalue, ih.elements helements⟩
  · cases h

theorem readable_of_readFields {fuel : ℕ} (ih : ReadsReadable fuel) {depth : ℕ}
    {cs rest : List Char} {fs : List (String × Json)}
    (h : readFields (fuel + 1) depth cs = .ok (fs, rest)) : ∀ f ∈ fs, Readable depth f.2 := by
  unfold readFields at h
  split at h
  · obtain ⟨⟨name, rest'⟩, -, h⟩ := exists_of_bind_eq_ok h
    dsimp only at h
    split at h
    · obtain ⟨⟨x, rest''⟩, hvalue, h⟩ := exists_of_bind_eq_ok h
      dsimp only at h
      split at h
      · cases h
        exact List.forall_mem_singleton.mpr (ih.value hvalue)
      · obtain ⟨⟨fs', rest'''⟩, hfields, h⟩ := exists_of_bind_eq_ok h
        cases h
        exact List.forall_mem_cons.mpr ⟨ih.value hvalue, ih.fields hfields⟩
      · cases h
    · cases h
  · cases h

theorem readsReadable (fuel : ℕ) : ReadsReadable fuel := by
  induction fuel with
  | zero =>
      refine ⟨?_, ?_, ?_⟩
      · intro _ _ _ _ h
        cases h
      · intro _ _ _ _ h
        cases h
      · intro _ _ _ _ h
        cases h
  | succ fuel ih =>
      exact ⟨readable_of_readValue ih, readable_of_readElements ih, readable_of_readFields ih⟩

/-- A text that is read as a value is read as one that can be read within the limit. -/
theorem readable_of_parse [Nesting] {cs : List Char} {x : Json} (h : parse cs = .ok x) :
    Readable Nesting.limit x := by
  unfold parse at h
  obtain ⟨⟨y, rest⟩, hread, h⟩ := exists_of_bind_eq_ok h
  dsimp only at h
  split at h
  · cases h
    exact (readsReadable _).value hread
  · cases h

theorem readable_of_ofFile [Nesting] {bytes : ByteArray} {x : Json} (h : ofFile bytes = .ok x) :
    Readable Nesting.limit x := by
  unfold ofFile at h
  split at h
  · cases h
  · exact readable_of_parse (eq_ok_of_mapError h)

/-- What an object holds can be read within one level less. -/
theorem Readable.getD {depth : ℕ} {fields : Fields} (h : Readable (depth + 1) (.obj fields))
    (name : String) {default : Json} (hdefault : Readable depth default) :
    Readable depth (fields.getD name default) := by
  cases h with
  | obj unique readable =>
      rw [Fields.getD, Fields.get?]
      cases hlookup : fields.lookup name with
      | none => exact hdefault
      | some x =>
          obtain ⟨before, after, rfl, -⟩ := List.lookup_eq_some_iff.mp hlookup
          exact readable (name, x) (List.mem_append_right _ List.mem_cons_self)

end Json

end CardImport
