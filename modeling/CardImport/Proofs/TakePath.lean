import CardImport.Proofs.Json.Reread
import CardImport.Take

/-!
# Paths of takes

What is percent-encoded can be read back, and holds neither a slash nor a character above ASCII. So
the path of a take is taken apart at its slashes, and scene and number are read from the last two
parts, whatever texts they are: the path is the address of one take and of no other, and never that
of the collection.
-/

namespace CardImport

/-! ## Percent-encoded bytes -/

namespace Text

theorem isUnreserved_iff (n : ℕ) : isUnreserved n = true ↔
    (48 ≤ n ∧ n ≤ 57 ∨ 65 ≤ n ∧ n ≤ 90 ∨ 97 ≤ n ∧ n ≤ 122) ∨ n = 45 ∨ n = 46 ∨ n = 95 ∨ n = 126 := by
  simp only [isUnreserved, Bool.or_eq_true, Bool.and_eq_true, decide_eq_true_eq, beq_iff_eq]
  omega

theorem toNat_ofNat_of_lt {n : ℕ} (h : n < 0x80) : (Char.ofNat n).toNat = n := by
  have hall : ∀ n < 0x80, (Char.ofNat n).toNat = n := by decide
  exact hall n h

theorem hexDigitValue?_upperHexDigit {n : ℕ} (h : n < 16) :
    hexDigitValue? (upperHexDigit n) = some n := by
  have hall : ∀ n < 16, hexDigitValue? (upperHexDigit n) = some n := by decide
  exact hall n h

theorem percentDecode?_percentByte (b : UInt8) (cs : List Char) :
    percentDecode? (percentByte b ++ cs) = (percentDecode? cs).map (b :: ·) := by
  have hbyte : b.toNat < 256 := b.toNat_lt
  have hself : UInt8.ofNat b.toNat = b := UInt8.ofNat_toNat
  rw [percentByte]
  split
  · rename_i hunreserved
    rw [isUnreserved_iff] at hunreserved
    have hvalue : (Char.ofNat b.toNat).toNat = b.toNat := toNat_ofNat_of_lt (by omega)
    have hpercent : Char.ofNat b.toNat ≠ '%' := by
      intro heq
      rw [heq] at hvalue
      have : b.toNat = 37 := hvalue.symm
      omega
    rw [List.singleton_append, percentDecode?.eq_3, if_neg, hvalue, hself]
    · rw [not_or, hvalue]
      exact ⟨hpercent, by omega⟩
    · exact fun _ _ _ h => absurd h hpercent
  · have hsplit : b.toNat / 16 * 16 + b.toNat % 16 = b.toNat := by omega
    rw [List.cons_append, List.cons_append, List.singleton_append, percentDecode?,
      hexDigitValue?_upperHexDigit (by omega), hexDigitValue?_upperHexDigit (by omega)]
    dsimp only [bind, Option.bind]
    rw [hsplit, hself]
    cases percentDecode? cs <;> rfl

theorem percentDecode?_percentEncode (bytes : List UInt8) :
    percentDecode? (percentEncode bytes) = some bytes := by
  induction bytes with
  | nil => rfl
  | cons b rest ih =>
      rw [percentEncode, List.flatMap_cons, percentDecode?_percentByte]
      rw [percentEncode] at ih
      rw [ih]
      rfl

theorem of_mem_percentEncode {bytes : List UInt8} {c : Char} (h : c ∈ percentEncode bytes) :
    c.toNat < 0x80 ∧ c ≠ '/' := by
  obtain ⟨b, -, hc⟩ := List.mem_flatMap.mp h
  have hhex : ∀ n < 16, (upperHexDigit n).toNat < 0x80 ∧ upperHexDigit n ≠ '/' := by decide
  have hbyte : b.toNat < 256 := b.toNat_lt
  rw [percentByte] at hc
  split at hc
  · rename_i hunreserved
    rw [isUnreserved_iff] at hunreserved
    have hvalue : (Char.ofNat b.toNat).toNat = b.toNat := toNat_ofNat_of_lt (by omega)
    rw [List.mem_singleton.mp hc]
    refine ⟨by omega, fun heq => ?_⟩
    rw [heq] at hvalue
    have : b.toNat = 47 := hvalue.symm
    omega
  · simp only [List.mem_cons, List.not_mem_nil, or_false] at hc
    rcases hc with rfl | rfl | rfl
    · decide
    · exact hhex _ (by omega)
    · exact hhex _ (by omega)

/-! ## Percent-encoded texts -/

def percentText? (cs : List Char) : Option String :=
  (percentDecode? cs).bind fun bytes => String.fromUTF8? bytes.toByteArray

theorem toList_loop (bytes : ByteArray) (i : ℕ) (found : List UInt8) :
    ByteArray.toList.loop bytes i found = found.reverse ++ bytes.data.toList.drop i := by
  induction hleft : bytes.size - i generalizing i found with
  | zero =>
      have hlength : bytes.data.toList.length ≤ i := by
        rw [Array.length_toList]
        exact Nat.sub_eq_zero_iff_le.mp hleft
      rw [ByteArray.toList.loop, if_neg (by omega), List.drop_eq_nil_of_le hlength, List.append_nil]
  | succ left ih =>
      have hi : i < bytes.size := by omega
      have hi' : i < bytes.data.toList.length := by
        rw [Array.length_toList]
        exact hi
      have hget : bytes.get! i = bytes.data.toList[i] := by
        rw [Array.getElem_toList]
        exact getElem!_pos bytes.data i hi
      rw [ByteArray.toList.loop, if_pos hi, ih _ _ (by omega), List.reverse_cons, List.append_assoc,
        hget, List.drop_eq_getElem_cons hi']
      rfl

theorem toByteArray_utf8Bytes (s : String) : (utf8Bytes s).toByteArray = s.toUTF8 := by
  have hbytes : utf8Bytes s = s.toUTF8.data.toList := toList_loop s.toUTF8 0 []
  rw [hbytes]
  apply ByteArray.ext
  apply Array.toList_inj.mp
  exact List.toList_data_toByteArray

theorem percentText?_percentEncode (s : String) :
    percentText? (percentEncode (utf8Bytes s)) = some s := by
  rw [percentText?, percentDecode?_percentEncode, Option.bind_some, toByteArray_utf8Bytes,
    Json.fromUTF8?_toUTF8]

end Text

/-! ## Addresses -/

namespace TakeId

/-- How a path stands for the take with a scene and a number: it is ASCII below `/take/`, and its
last two parts are those texts in percent-encoded UTF-8. -/
structure Addresses (path scene num : String) : Prop where
  ascii : ∀ c ∈ path.toList, c.toNat < 0x80
  below : collectionPath.toList <+: path.toList
  parts : ∃ first second,
    path.toList.splitOnP (· == '/') = [[], "take".toList, first, second] ∧
      Text.percentText? first = some scene ∧ Text.percentText? second = some num

theorem Addresses.eq {path scene num scene' num' : String} (h : Addresses path scene num)
    (h' : Addresses path scene' num') : scene' = scene ∧ num' = num := by
  obtain ⟨first, second, hsplit, hscene, hnum⟩ := h.parts
  obtain ⟨first', second', hsplit', hscene', hnum'⟩ := h'.parts
  cases hsplit.symm.trans hsplit'
  exact ⟨Option.some.inj (hscene'.symm.trans hscene), Option.some.inj (hnum'.symm.trans hnum)⟩

/-- The path of the collection has three parts only. -/
theorem Addresses.ne_collectionPath {path scene num : String} (h : Addresses path scene num) :
    path ≠ collectionPath := by
  rintro rfl
  obtain ⟨first, second, hsplit, -⟩ := h.parts
  have hthree : (collectionPath.toList.splitOnP (· == '/')).length = 3 := by decide
  rw [hsplit] at hthree
  cases hthree

theorem addresses_path (scene num : String) :
    ∃ path, (ofText scene num).path = .ok path ∧ Addresses path scene num := by
  let first := Text.percentEncode (Text.utf8Bytes scene)
  let second := Text.percentEncode (Text.utf8Bytes num)
  have hfirst : ∀ c ∈ first, c.toNat < 0x80 ∧ c ≠ '/' := fun c => Text.of_mem_percentEncode
  have hsecond : ∀ c ∈ second, c.toNat < 0x80 ∧ c ≠ '/' := fun c => Text.of_mem_percentEncode
  refine ⟨collectionPath ++ String.ofList first ++ "/" ++ String.ofList second, rfl, ?_⟩
  have hchars : (collectionPath ++ String.ofList first ++ "/" ++ String.ofList second).toList =
      collectionPath.toList ++ (first ++ '/' :: second) := by
    simp [String.toList_append]
  refine ⟨?_, ?_, first, second, ?_, ?_, ?_⟩
  · rw [hchars]
    have hcollection : ∀ c ∈ collectionPath.toList, c.toNat < 0x80 := by
      simp [collectionPath]
    intro c hc
    simp only [List.mem_append, List.mem_cons] at hc
    rcases hc with hc | hc | rfl | hc
    · exact hcollection c hc
    · exact (hfirst c hc).1
    · decide
    · exact (hsecond c hc).1
  · rw [hchars]
    exact List.prefix_append _ _
  -- The encoded names hold no slash, so those of the path are the only ones to split at.
  · have hnone : ∀ {cs : List Char}, (∀ c ∈ cs, c.toNat < 0x80 ∧ c ≠ '/') →
        cs.splitOnP (· == '/') = [cs] :=
      fun h => List.splitOnP_eq_singleton fun c hc => beq_false_of_ne (h c hc).2
    rw [hchars]
    show ([] ++ '/' :: ("take".toList ++ '/' :: (first ++ '/' :: second))).splitOnP _ = _
    rw [List.splitOnP_append_cons _ _ rfl, List.splitOnP_append_cons _ _ rfl,
      List.splitOnP_append_cons _ _ rfl, hnone hfirst, hnone hsecond]
    rfl
  · exact Text.percentText?_percentEncode scene
  · exact Text.percentText?_percentEncode num

/-- Every take that is named by two texts has a path of its own: the path tells both texts, no other
two texts have it, and it is not that of the collection. -/
theorem path_addresses (scene num : String) :
    ∃ path, (ofText scene num).path = .ok path ∧ Addresses path scene num ∧
      path ≠ collectionPath ∧
      ∀ scene' num', (ofText scene' num').path = .ok path → scene' = scene ∧ num' = num := by
  obtain ⟨path, hpath, h⟩ := addresses_path scene num
  refine ⟨path, hpath, h, h.ne_collectionPath, fun scene' num' hother => ?_⟩
  obtain ⟨path', hpath', h'⟩ := addresses_path scene' num'
  cases hpath'.symm.trans hother
  exact h.eq h'

example : (ofText "a/b%2F" "é").path = .ok "/take/a%2Fb%252F/%C3%A9" := by cbv

end TakeId

end CardImport
