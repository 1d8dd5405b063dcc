import CardImport.Proofs.Json.Readable
import CardImport.Proofs.Numbering
import CardImport.Proofs.Session.Edit

/-!
# Filling a list

Filling from a position changes the items behind it and no others: each gets the scene of the item
at the position, or the number that comes so many after the number there. What was filled from a
position stays as it is when it is filled again from there or from behind, since the text of a
number reads as that number. This needs a position from which something was filled: one that is out
of range, or has no number, leaves the list as it was, and then the next filling may change it.
-/

namespace CardImport

namespace Items

/-! ## The items behind a position -/

/-- The list with the items behind a position changed, each in the way that goes with its distance
from there. -/
def changeBehind (items : List Item) (p : Nat) (change : Nat → Item → Item) : List Item :=
  items.mapIdx fun q i => if p < q then change (q - p) i else i

theorem getElem?_changeBehind (items : List Item) (p : Nat) (change : Nat → Item → Item)
    (q : Nat) : (changeBehind items p change)[q]? =
      (items[q]?).map fun i => if p < q then change (q - p) i else i :=
  List.getElem?_mapIdx

theorem take_append_change (items : List Item) (p : Nat) (change : Nat → Item → Item) :
    items.take (p + 1) ++ (items.drop (p + 1)).mapIdx (fun k i => change (k + 1) i) =
      changeBehind items p change := by
  apply List.ext_getElem?
  intro q
  rw [getElem?_changeBehind, List.getElem?_append, List.length_take]
  by_cases hp : p < q
  · -- Behind the position: the index counts from the item after it.
    by_cases hq : q < items.length
    · have hdrop : ¬ q < min (p + 1) items.length := by omega
      have hindex : p + 1 + (q - min (p + 1) items.length) = q := by omega
      have hdistance : q - min (p + 1) items.length + 1 = q - p := by omega
      simp only [hdrop, if_false, List.getElem?_mapIdx, List.getElem?_drop, hindex, hdistance, hp,
        if_true]
    · have hnone : items[q]? = none := List.getElem?_eq_none_iff.mpr (Nat.not_lt.mp hq)
      have hdrop : ¬ q < min (p + 1) items.length := by omega
      simp only [hdrop, if_false, hnone, Option.map_none, List.getElem?_eq_none_iff,
        List.length_mapIdx, List.length_drop]
      omega
  · simp only [hp, if_false, Option.map_id']
    by_cases hq : q < items.length
    · have htake : q < min (p + 1) items.length := by omega
      have hbefore : q < p + 1 := by omega
      simp only [htake, if_true, List.getElem?_take, hbefore]
    · have hnone : items[q]? = none := List.getElem?_eq_none_iff.mpr (Nat.not_lt.mp hq)
      have htake : ¬ q < min (p + 1) items.length := by omega
      simp only [htake, if_false, hnone, List.getElem?_eq_none_iff, List.length_mapIdx,
        List.length_drop]
      omega

/-- Nothing changes if all items behind the position are already as they are to be. -/
theorem changeBehind_eq_self {items : List Item} {p : Nat} {change : Nat → Item → Item}
    (h : ∀ q i, p < q → items[q]? = some i → change (q - p) i = i) :
    changeBehind items p change = items := by
  apply List.ext_getElem?
  intro q
  rw [getElem?_changeBehind]
  cases hq : items[q]? with
  | none => rfl
  | some i =>
      rw [Option.map_some]
      by_cases hp : p < q
      · rw [if_pos hp, h q i hp hq]
      · rw [if_neg hp]

/-! ## Positions -/

theorem at?_natCast (items : List Item) (p : Nat) :
    at? items p = (items[p]?).map fun i => (i, p + 1) := by
  have hnot : ¬ (p : Int) < 0 := by omega
  rw [at?, if_neg hnot, Int.toNat_natCast]

theorem at?_of_out {items : List Item} {i : Int} (h : i < 0 ∨ items.length ≤ i) :
    at? items i = none := by
  rw [at?]
  by_cases hi : i < 0
  · rw [if_pos hi]
  · have hlength : items.length ≤ i.toNat := by omega
    rw [if_neg hi, List.getElem?_eq_none_iff.mpr hlength]
    rfl

/-- A position from which something is filled: it is in range or there is nothing to do. -/
theorem at?_cases (items : List Item) (i : Int) :
    at? items i = none ∨ ∃ (p : Nat) (anchor : Item), i = p ∧ items[p]? = some anchor := by
  by_cases hout : i < 0 ∨ items.length ≤ i
  · exact Or.inl (at?_of_out hout)
  · right
    obtain ⟨p, rfl⟩ : ∃ p : Nat, i = p := ⟨i.toNat, by omega⟩
    have hp : p < items.length := by omega
    exact ⟨p, _, rfl, List.getElem?_eq_getElem hp⟩

/-! ## Scenes -/

theorem fillScene_of_out {items : List Item} {i : Int} (h : at? items i = none) :
    fillScene items i = items := by
  rw [fillScene, h]

theorem fillScene_eq {items : List Item} {p : Nat} {anchor : Item}
    (h : items[p]? = some anchor) : fillScene items p =
      changeBehind items p fun _ later => { later with scene := anchor.scene } := by
  have hmap : ∀ later : List Item, (later.map fun i => { i with scene := anchor.scene }) =
      later.mapIdx fun _ i => { i with scene := anchor.scene } := by
    intro later
    rw [List.mapIdx_eq_zipIdx_map]
    conv_lhs => rw [← List.zipIdx_map_fst 0 later, List.map_map]
    rfl
  rw [fillScene, at?_natCast, h]
  simp only [Option.map_some, hmap]
  exact take_append_change items p fun _ later => { later with scene := anchor.scene }

/-- Scenes that were filled from a position stay when they are filled from there or from behind. -/
theorem fillScene_fillScene {items : List Item} {p : Nat} {anchor : Item}
    (h : items[p]? = some anchor) {j : Int} (hj : p ≤ j) :
    fillScene (fillScene items p) j = fillScene items p := by
  rcases at?_cases (fillScene items p) j with hout | ⟨q, second, rfl, hq⟩
  · exact fillScene_of_out hout
  · rw [fillScene_eq hq]
    have hscene : ∀ r i, p ≤ r → (fillScene items p)[r]? = some i → i.scene = anchor.scene := by
      intro r i hr hi
      rw [fillScene_eq h, getElem?_changeBehind] at hi
      by_cases hpr : p < r
      · simp only [hpr, if_true] at hi
        obtain ⟨_, -, rfl⟩ := Option.map_eq_some_iff.mp hi
        rfl
      · obtain rfl : p = r := by omega
        simp only [Nat.lt_irrefl, if_false, h, Option.map_some, Option.some.injEq] at hi
        rw [hi]
    apply changeBehind_eq_self
    intro r i hqr hi
    have hsecond := hscene q second (by omega) hq
    have hitem := hscene r i (by omega) hi
    rw [hsecond, ← hitem]

/-! ## Numbers -/

/-- Numbers that can be written from the first item on can be written from the second one on. -/
theorem short_cons {n : Int} {i : Item} {rest : List Item}
    (h : ∀ p : Nat, p < (i :: rest).length → Number.Short (n + p)) :
    Number.Short n ∧ ∀ p : Nat, p < rest.length → Number.Short (n + 1 + p) := by
  constructor
  · have hfirst := h 0 (Nat.succ_pos _)
    rwa [Int.natCast_zero, Int.add_zero] at hfirst
  · intro p hp
    have hnext := h (p + 1) (Nat.succ_lt_succ hp)
    rwa [Int.natCast_succ, Int.add_comm (p : Int) 1, ← Int.add_assoc] at hnext

theorem numbered_of_short {n : Int} {items : List Item}
    (h : ∀ p : Nat, p < items.length → Number.Short (n + p)) :
    numbered n items = (consecutive n items, .ok ()) := by
  induction items generalizing n with
  | nil => rfl
  | cons i rest ih =>
      obtain ⟨hfirst, hrest⟩ := short_cons h
      have hwritten : Number.writeWhole n = .ok (toString n) := by
        rw [Number.writeWhole, if_neg (Nat.not_lt.mpr hfirst)]
      unfold numbered
      simp only [hwritten, ih hrest, consecutive_cons]

theorem fillNum_of_out {items : List Item} {i : Int} (h : at? items i = none) :
    fillNum items i = (items, .ok ()) := by
  rw [fillNum, h]

theorem fillNum_of_no_number {items : List Item} {p : Nat} {anchor : Item}
    (h : items[p]? = some anchor) (hnum : TakeNumber.parse? anchor.num = .ok none) :
    fillNum items p = (items, .ok ()) := by
  rw [fillNum, at?_natCast, h]
  simp only [Option.map_some, hnum]

/-- The numbers behind a position, counted from the number there, can all be written. -/
def Writable (items : List Item) (p : Nat) (n : Int) : Prop :=
  ∀ k : Nat, 1 ≤ k → p + k < items.length → Number.Short (n + k)

theorem fillNum_eq {items : List Item} {p : Nat} {anchor : Item} {n : Int}
    (h : items[p]? = some anchor) (hnum : TakeNumber.parse? anchor.num = .ok (some n))
    (hshort : Writable items p n) : fillNum items p =
      (changeBehind items p fun k later => { later with num := toString (n + k) }, .ok ()) := by
  have hlater : numbered (n + 1) (items.drop (p + 1)) =
      (consecutive (n + 1) (items.drop (p + 1)), .ok ()) := by
    apply numbered_of_short
    intro k hk
    rw [List.length_drop] at hk
    have hk' := hshort (k + 1) (by omega) (by omega)
    rwa [Int.natCast_succ, Int.add_comm (k : Int) 1, ← Int.add_assoc] at hk'
  have hconsecutive : consecutive (n + 1) (items.drop (p + 1)) =
      (items.drop (p + 1)).mapIdx fun k later =>
        { later with num := toString (n + (k + 1 : Nat)) } := by
    unfold consecutive
    congr 1
    ext k later
    rw [Int.natCast_succ, Int.add_comm (k : Int) 1, ← Int.add_assoc]
  rw [fillNum, at?_natCast, h]
  simp only [Option.map_some, hnum, hlater, hconsecutive]
  rw [take_append_change items p fun k later => { later with num := toString (n + k) }]

theorem parse?_of_short {n : Int} (h : Number.Short n) :
    TakeNumber.parse? (toString n) = .ok (some n) := by
  rw [TakeNumber.parse?_toString, if_neg (Nat.not_lt.mpr h)]

/-- Numbers that were filled from a position stay when they are filled from there or from
behind. -/
theorem fillNum_fillNum {items : List Item} {p : Nat} {anchor : Item} {n : Int}
    (h : items[p]? = some anchor) (hnum : TakeNumber.parse? anchor.num = .ok (some n))
    (hshort : Writable items p n) {j : Int} (hj : p ≤ j) :
    fillNum (fillNum items p).1 j = ((fillNum items p).1, .ok ()) := by
  rw [fillNum_eq h hnum hshort]
  generalize hfilled :
    changeBehind items p (fun k later => { later with num := toString (n + k) }) = filled
  have hlength : filled.length = items.length := by
    rw [← hfilled, changeBehind, List.length_mapIdx]
  -- What stands at a position behind the first one, and what is read there.
  have hbehind : ∀ r i, p < r → filled[r]? = some i → i.num = toString (n + (r - p : Nat)) := by
    intro r i hr hi
    rw [← hfilled, getElem?_changeBehind] at hi
    simp only [hr, if_true] at hi
    obtain ⟨_, -, rfl⟩ := Option.map_eq_some_iff.mp hi
    rfl
  have hread : ∀ r i, p ≤ r → filled[r]? = some i →
      TakeNumber.parse? i.num = .ok (some (n + (r - p : Nat))) := by
    intro r i hr hi
    by_cases hpr : p < r
    · have hin : r < items.length := hlength ▸ (List.getElem?_eq_some_iff.mp hi).1
      rw [hbehind r i hpr hi]
      exact parse?_of_short (hshort (r - p) (by omega) (by omega))
    · obtain rfl : p = r := by omega
      rw [← hfilled, getElem?_changeBehind, h] at hi
      simp only [Nat.lt_irrefl, if_false, Option.map_some, Option.some.injEq] at hi
      rw [← hi, hnum, Nat.sub_self, Int.natCast_zero, Int.add_zero]
  rcases at?_cases filled j with hout | ⟨q, second, rfl, hq⟩
  · exact fillNum_of_out hout
  · have hpq : p ≤ q := by omega
    have hsum : ∀ k : Nat, n + ((q - p : Nat) : Int) + k = n + (q - p + k : Nat) := by
      intro k
      omega
    have hwritable : Writable filled q (n + (q - p : Nat)) := by
      intro k hk hin
      rw [hsum]
      exact hshort (q - p + k) (by omega) (by omega)
    rw [fillNum_eq hq (hread q second hpq hq) hwritable]
    congr 1
    apply changeBehind_eq_self
    intro r i hqr hi
    have hdistance : q - p + (r - q) = r - p := by omega
    rw [hsum, hdistance, ← hbehind r i (by omega) hi]

end Items

/-! ## Filling in a session -/

namespace Session

def changeBehind (s : Session) (p : Nat) (change : Nat → Item → Item) : Session :=
  { s with items := Items.changeBehind s.items p change }

/-- What was filled from a position stays as it is when it is filled again from there or from
behind. -/
def StaysFilled (s : Session) (fill : Int → Edit) (i : Int) : Prop :=
  ∀ j, i ≤ j → (s.edit (fill i)).1.edit (fill j) = ((s.edit (fill i)).1, .ok ())

theorem edit_eq {s : Session} {e : Edit} {items : List Item}
    (h : Items.edit s.items e = (items, .ok ())) : s.edit e = ({ s with items }, .ok ()) := by
  rw [edit, h]

theorem edit_of_out {s : Session} {i : Int} (h : i < 0 ∨ s.items.length ≤ i) :
    s.edit (.autofillScene i) = (s, .ok ()) ∧ s.edit (.autofillNum i) = (s, .ok ()) := by
  have hout := Items.at?_of_out h
  constructor
  · apply edit_eq
    rw [Items.edit, Items.fillScene_of_out hout]
  · apply edit_eq
    rw [Items.edit, Items.fillNum_of_out hout]

theorem edit_autofillScene {s : Session} {p : Nat} {anchor : Item}
    (h : s.items[p]? = some anchor) :
    s.edit (.autofillScene p) =
        (s.changeBehind p fun _ later => { later with scene := anchor.scene }, .ok ()) ∧
      s.StaysFilled .autofillScene p := by
  constructor
  · apply edit_eq
    rw [Items.edit, Items.fillScene_eq h]
  · intro j hj
    apply edit_eq
    show (Items.fillScene (Items.fillScene s.items p) j, Except.ok ()) = _
    rw [Items.fillScene_fillScene h hj]

theorem edit_autofillNum {s : Session} {p : Nat} {anchor : Item} {n : Int}
    (h : s.items[p]? = some anchor) (hnum : TakeNumber.parse? anchor.num = .ok (some n))
    (hshort : Items.Writable s.items p n) :
    s.edit (.autofillNum p) =
        (s.changeBehind p fun k later => { later with num := toString (n + k) }, .ok ()) ∧
      s.StaysFilled .autofillNum p := by
  constructor
  · apply edit_eq
    rw [Items.edit, Items.fillNum_eq h hnum hshort]
  · intro j hj
    apply edit_eq
    show Items.fillNum (Items.fillNum s.items p).1 j = _
    rw [Items.fillNum_fillNum h hnum hshort hj]
    rfl

/-- Filling from a position that is out of range changes nothing, and from one in range the items
behind it alone. Numbers are filled in if the item there has one. -/
theorem edit_autofill (s : Session) (i : Int) :
    (i < 0 ∨ s.items.length ≤ i →
      s.edit (.autofillScene i) = (s, .ok ()) ∧ s.edit (.autofillNum i) = (s, .ok ())) ∧
    ∀ (p : Nat) (anchor : Item), i = p → s.items[p]? = some anchor →
      (s.edit (.autofillScene i) =
          (s.changeBehind p fun _ later => { later with scene := anchor.scene }, .ok ()) ∧
        s.StaysFilled .autofillScene i) ∧
      (TakeNumber.parse? anchor.num = .ok none → s.edit (.autofillNum i) = (s, .ok ())) ∧
      ∀ n : Int, TakeNumber.parse? anchor.num = .ok (some n) → Items.Writable s.items p n →
        s.edit (.autofillNum i) =
            (s.changeBehind p fun k later => { later with num := toString (n + k) }, .ok ()) ∧
          s.StaysFilled .autofillNum i := by
  constructor
  · exact edit_of_out
  · rintro p anchor rfl hanchor
    refine ⟨edit_autofillScene hanchor, ?_, ?_⟩
    · intro hnum
      apply edit_eq
      rw [Items.edit, Items.fillNum_of_no_number hanchor hnum]
    · intro n hnum hshort
      exact edit_autofillNum hanchor hnum hshort

def ofNums (nums : List String) : Session :=
  { items := nums.map fun num => { clip := ⟨.str "a", [], 0⟩, num } }

theorem edit_autofill_across_zero :
    (ofNums [" -1b", "x", "7"]).edit (.autofillNum 0) = (ofNums [" -1b", "0", "1"], .ok ()) ∧
      (ofNums [" -1b", "x", "7"]).StaysFilled .autofillNum 0 := by
  have hwritable : Items.Writable (ofNums [" -1b", "x", "7"]).items 0 (-1) := by
    intro k hk hin
    have hk' : k = 1 ∨ k = 2 := by
      have hlength : (ofNums [" -1b", "x", "7"]).items.length = 3 := rfl
      omega
    obtain rfl | rfl := hk' <;> decide
  have hread : TakeNumber.parse? " -1b" = .ok (some (-1)) := by decide +kernel
  obtain ⟨hfilled, hstays⟩ := ((edit_autofill (ofNums [" -1b", "x", "7"]) 0).2 0 _ rfl rfl).2.2 (-1)
    hread hwritable
  exact ⟨hfilled, hstays⟩

/-- From an item without a number nothing is filled in, and then the item after it may have one. -/
theorem not_staysFilled_of_no_number :
    ¬ (ofNums ["x", "1", "7"]).StaysFilled .autofillNum 0 := by
  intro hstays
  have hnum : (((ofNums ["x", "1", "7"]).edit (.autofillNum 0)).1.edit (.autofillNum 1)).1.items.map
      Item.num = ((ofNums ["x", "1", "7"]).edit (.autofillNum 0)).1.items.map Item.num := by
    rw [hstays 1 (by decide)]
  revert hnum
  decide +kernel

end Session

end CardImport
