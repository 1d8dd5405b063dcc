import CardImport.Http.Body
import CardImport.Proofs.Json.Reread

/-!
# Values nested too deep

A body that cannot be read is null, unless it is nested too deep. A text that opens more arrays than
may stand inside each other is nested too deep whatever follows: the reader gives up before it meets
the end, so that the text need not be JSON at all.
-/

namespace CardImport

/-! ## Bodies -/

namespace Body

/-- Only a body that is nested too deep cannot be read. -/
theorem eq_tooDeep_of_data {body : Body} {f : Failure} (h : body.data = .error f) :
    ∃ innermost, f = .tooDeep innermost := by
  unfold data at h
  split at h
  · cases h
  · split at h
    · cases h
    · cases h
    · cases h
      exact ⟨_, rfl⟩

variable [Json.Nesting]

/-- A body that was read from its bytes holds what is read there, unless it is empty. -/
theorem data_ofBytes {bytes : ByteArray} {x : Json} (hsome : bytes.isEmpty = false)
    (hread : Json.ofBytes bytes = .ok x) : (ofBytes bytes).data = .ok x := by
  unfold data ofBytes
  rw [hread]
  exact if_neg (Bool.eq_false_iff.mp hsome)

end Body

theorem Json.ofBytes_write [Nesting] {x : Json} {style : Style} (h : x.Readable Nesting.limit)
    (hdecoded : Text.decode? (x.write style).toUTF8 = some (written style 0 x)) :
    ofBytes (x.write style).toUTF8 = .ok x := by
  rw [ofBytes, hdecoded]
  dsimp only
  rw [parse_written h]

/-! ## Too many brackets -/

/-- So many opening brackets, and a text behind them. -/
def Json.bracketed (n : Nat) (rest : List Char) : List Char := List.replicate n '[' ++ rest

namespace Json

theorem bracketed_add (n k : Nat) (rest : List Char) :
    bracketed (n + k) rest = bracketed n (bracketed k rest) := by
  unfold bracketed
  rw [List.replicate_add, List.append_assoc]

theorem skipSpace_bracketed (n : Nat) (rest : List Char) :
    skipSpace (bracketed (n + 1) rest) = bracketed (n + 1) rest := rfl

/-- Down to a depth, one bracket more is too many. -/
theorem readValue_bracketed (rest : List Char) {depth fuel : Nat} (hfuel : 2 * depth < fuel) :
    readValue fuel depth (bracketed (depth + 1) rest) = .error (.tooDeep .array) := by
  induction depth generalizing fuel with
  | zero =>
      obtain ⟨fuel, rfl⟩ : ∃ n, fuel = n + 1 := ⟨fuel - 1, by omega⟩
      rfl
  | succ depth ih =>
      -- Each bracket takes a reader of a value and one of elements.
      obtain ⟨fuel, rfl⟩ : ∃ n, fuel = n + 2 := ⟨fuel - 2, by omega⟩
      have hinner : readValue fuel depth (bracketed (depth + 1) rest) = .error (.tooDeep .array) :=
        ih (by omega)
      have helements : readElements (fuel + 1) depth (bracketed (depth + 1) rest) =
          .error (.tooDeep .array) := by
        rw [readElements, hinner]
        rfl
      show ((readElements (fuel + 1) depth (bracketed (depth + 1) rest)).map fun p =>
        (Json.arr p.1, p.2)) = _
      rw [helements]
      rfl

/-- A text of more opening brackets than may stand inside each other is nested too deep. -/
theorem parse_bracketed [Nesting] {n : Nat} (hn : Nesting.limit < n) (rest : List Char) :
    parse (bracketed n rest) = .error (.tooDeep .array) := by
  obtain ⟨k, rfl⟩ : ∃ k, n = Nesting.limit + 1 + k := ⟨n - (Nesting.limit + 1), by omega⟩
  rw [bracketed_add]
  have hfuel : 2 * Nesting.limit <
      2 * (bracketed (Nesting.limit + 1) (bracketed k rest)).length + 2 := by
    simp only [bracketed, List.length_append, List.length_replicate]
    omega
  rw [parse, skipSpace_bracketed, readValue_bracketed _ hfuel]
  rfl

end Json

/-- A text that starts with four brackets is read as what it is: its first bytes tell no other
encoding. -/
theorem Text.decode?_bracketed (n : Nat) (rest : List Char) :
    decode? (String.ofList (Json.bracketed (n + 4) rest)).toUTF8 =
      some (Json.bracketed (n + 4) rest) := by
  have hsplit : Json.bracketed (n + 4) rest = Json.bracketed 4 (Json.bracketed n rest) := by
    rw [Nat.add_comm, Json.bracketed_add]
  have hfour : (List.replicate 4 '[').utf8Encode = ByteArray.mk #[0x5b, 0x5b, 0x5b, 0x5b] := by
    decide
  have hhead : ((String.ofList (Json.bracketed (n + 4) rest)).toUTF8.extract 0 4).toList =
      [0x5b, 0x5b, 0x5b, 0x5b] := by
    have hsize : (ByteArray.mk #[0x5b, 0x5b, 0x5b, 0x5b]).size = 4 := rfl
    rw [String.toUTF8, String.toByteArray_ofList, hsplit, Json.bracketed, List.utf8Encode_append,
      hfour, ByteArray.extract_append, hsize, Nat.sub_self, Nat.zero_sub, ByteArray.extract_same,
      ByteArray.append_empty]
    decide +kernel
  have hdetect : Encoding.detect [0x5b, 0x5b, 0x5b, 0x5b] = (.utf8, 0) := by decide
  unfold decode?
  rw [hhead, hdetect]
  show (String.fromUTF8? (ByteArray.extract _ 0 (ByteArray.size _))).map String.toList = _
  rw [ByteArray.extract_zero_size, Json.fromUTF8?_toUTF8, Option.map_some, String.toList_ofList]

theorem Json.ofBytes_bracketed [Nesting] {n : Nat} (hn : Nesting.limit < n) (rest : List Char) :
    ofBytes (String.ofList (bracketed n rest)).toUTF8 = .error (.tooDeep .array) := by
  have hfour : n - 4 + 4 = n := Nat.sub_add_cancel (Nat.le_of_lt (Nat.lt_of_le_of_lt
    (Nat.le_add_left 4 _) hn))
  have hdecoded := Text.decode?_bracketed (n - 4) rest
  rw [hfour] at hdecoded
  rw [ofBytes, hdecoded]
  dsimp only
  rw [parse_bracketed hn]

theorem Body.data_ofBytes_bracketed [Json.Nesting] {n : Nat} (hn : Json.Nesting.limit < n)
    (rest : List Char) :
    (ofBytes (String.ofList (Json.bracketed n rest)).toUTF8).data = .error (.tooDeep .array) := by
  have hsome : (String.ofList (Json.bracketed n rest)).toUTF8.isEmpty = false := by
    obtain ⟨k, rfl⟩ : ∃ k, n = k + 1 := ⟨n - 1, by omega⟩
    have hne : String.ofList (Json.bracketed (k + 1) rest) ≠ "" := by
      simp [Json.bracketed, List.replicate_succ]
    have hsize : (String.ofList (Json.bracketed (k + 1) rest)).toUTF8.size ≠ 0 := fun h =>
      hne (String.utf8ByteSize_eq_zero_iff.mp h)
    exact beq_false_of_ne hsize
  unfold data ofBytes
  rw [hsome, Json.ofBytes_bracketed hn]
  rfl

end CardImport
