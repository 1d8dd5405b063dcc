import CardImport.Json.Basic

/-!
# Keys

A value that can be found again as a member stands for a key: null, a text, a place on the number
line, or the NaN. Two values are found equal exactly if they stand for the same key, whatever they
are written as, so being found equal is an equivalence.
-/

namespace CardImport

/-! ## Places of numbers -/

namespace Number

def inUnits (n : Int) : Int := n * Binary64.unit

/-- Where a number stands: an infinity, or a whole number of units. A NaN stands nowhere. -/
def place? : Number → Option (Bool ⊕ Int)
  | .flag b => some (.inr (inUnits (ofFlag b)))
  | .whole n => some (.inr (inUnits n))
  | .real .nan => none
  | .real (.infinite negative) => some (.inl negative)
  | .real x => some (.inr x.units)

theorem unit_ne_zero : (Binary64.unit : Int) ≠ 0 := by
  have hpos : 0 < Binary64.unit := twoTo_pos 1074
  omega

theorem inUnits_inj (m n : Int) : inUnits m = inUnits n ↔ m = n :=
  Int.mul_eq_mul_right_iff unit_ne_zero

theorem compareInt?_eq (x : Binary64) (n : Int) :
    x.compareInt? n = x.compareUnits? (inUnits n) := rfl

/-- Numbers are equal if they stand in the same place. -/
theorem eq_iff_place? (a b : Number) :
    a.eq b = true ↔ a.place? ≠ none ∧ a.place? = b.place? := by
  rcases a with _ | _ | (_ | (_ | _) | _) <;> rcases b with _ | _ | (_ | (_ | _) | _) <;>
    simp [Number.eq, compare?, place?, Binary64.compare?, compareInt?_eq,
      Binary64.compareUnits?, inUnits_inj]
  -- What is left compares a whole number with a binary one, the other way round.
  all_goals exact eq_comm

end Number

/-! ## Keys of values -/

/-- What a value is found under. -/
inductive Key where
  | null
  | text (s : String)
  | place (p : Bool ⊕ Int)
  | nan
deriving DecidableEq

def Json.key? : Json → Option Key
  | .null => some .null
  | .str s => some (.text s)
  | .bool b => (Number.flag b).place?.map .place
  | .int n => (Number.whole n).place?.map .place
  | .float .nan => some .nan
  | .float x => (Number.real x).place?.map .place
  | .arr _ => none
  | .obj _ => none

namespace Json

theorem isKey_iff (x : Json) : x.isKey = true ↔ x.key? ≠ none := by
  rcases x with _ | _ | _ | (_ | _ | _) | _ | _ | _ <;> simp [isKey, key?, Number.place?]

theorem alike_iff_key? {x : Json} (hx : x.isKey = true) (y : Json) :
    x.alike y = true ↔ x.key? = y.key? := by
  rcases x with _ | _ | _ | (_ | _ | _) | _ | _ | _ <;>
    rcases y with _ | _ | _ | (_ | _ | _) | _ | _ | _ <;>
    simp [alike, key?, number?, Number.eq_iff_place?, Number.place?, isKey] at hx ⊢

/-- What is found equal to a value with a key has that key. -/
theorem alike_iff_key?_right (x : Json) {y : Json} (hy : y.isKey = true) :
    x.alike y = true ↔ x.key? = y.key? := by
  cases hx : x.isKey with
  | true => exact alike_iff_key? hx y
  | false =>
      have hno : x.alike y = false := by
        cases x <;> cases hx <;> cases y <;> first | rfl | cases hy
      have hnone : x.key? = none := by
        cases x <;> cases hx <;> rfl
      rw [hno, hnone]
      constructor
      · intro h
        cases h
      · intro h
        exact absurd h.symm ((isKey_iff y).mp hy)

theorem eq_str_of_alike {x : Json} {s : String} (h : x.alike (.str s) = true) : x = .str s := by
  have hkey := (alike_iff_key?_right x (y := .str s) rfl).mp h
  cases x with
  | str t =>
      cases hkey
      rfl
  | null => cases hkey
  | bool b => cases hkey
  | int n => cases hkey
  | float y => cases y <;> cases hkey
  | arr xs => cases hkey
  | obj fs => cases hkey

theorem alike_self {x : Json} (hx : x.isKey = true) : x.alike x = true :=
  (alike_iff_key? hx x).mpr rfl

theorem alike_str_iff {x : Json} {s : String} : x.alike (.str s) = true ↔ x = .str s := by
  constructor
  · exact eq_str_of_alike
  · rintro rfl
    exact alike_self rfl

theorem isKey_of_alike {x y : Json} (hy : y.isKey = true) (h : x.alike y = true) :
    x.isKey = true := by
  rw [isKey_iff, (alike_iff_key?_right x hy).mp h]
  exact (isKey_iff y).mp hy

theorem alike_symm {x y : Json} (hy : y.isKey = true) (h : x.alike y = true) :
    y.alike x = true :=
  (alike_iff_key? hy x).mpr ((alike_iff_key?_right x hy).mp h).symm

theorem alike_trans {x y z : Json} (hz : z.isKey = true) (h : x.alike y = true)
    (h' : y.alike z = true) : x.alike z = true := by
  have hy := isKey_of_alike hz h'
  rw [alike_iff_key?_right _ hz]
  exact ((alike_iff_key?_right x hy).mp h).trans ((alike_iff_key?_right y hz).mp h')

end Json

end CardImport
