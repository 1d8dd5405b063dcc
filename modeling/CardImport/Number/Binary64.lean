/-!
# Binary floating-point numbers of 64 bits

A finite number is a sign, a whole mantissa `m` and an exponent `e`, and stands for `± m * 2 ^ e`.
Mantissa and exponent are canonical, so two finite numbers with the same value and sign are equal.
There is one `nan`. Every operation takes the exact result and rounds it to the nearest number,
a tie going to the even mantissa, so all of them are built on `ofRatio`.
-/

namespace CardImport

/-! ## Powers -/

def twoTo (k : Nat) : Nat := Nat.pow 2 k

def tenTo (k : Nat) : Nat := Nat.pow 10 k

theorem twoTo_pos (k : Nat) : 0 < twoTo k := Nat.two_pow_pos k

theorem tenTo_pos (k : Nat) : 0 < tenTo k := Nat.pow_pos (by decide)

/-! ## Numbers -/

/-- The mantissas and exponents of finite numbers: a full mantissa of 53 bits, or the lowest
exponent. -/
def Canonical (m : Nat) (e : Int) : Prop :=
  m < twoTo 53 ∧ -1074 ≤ e ∧ e ≤ 971 ∧ (e = -1074 ∨ twoTo 52 ≤ m)

instance (m : Nat) (e : Int) : Decidable (Canonical m e) := by
  unfold Canonical; infer_instance

inductive Binary64 where
  | nan
  | infinite (negative : Bool)
  | finite (negative : Bool) (m : Nat) (e : Int) (canonical : Canonical m e)
deriving DecidableEq

/-- The quotient rounded to the nearest whole number, a tie to the even one. -/
def roundedQuotient (num den : Nat) : Nat :=
  let q := num / den
  let r := num % den
  if 2 * r < den then q
  else if den < 2 * r then q + 1
  else q + q % 2

/-- Numerator and denominator of `num / den / 2 ^ e`. -/
def scaledDown (num den : Nat) : Int → Nat × Nat
  | .ofNat e => (num, den * twoTo e)
  | .negSucc e => (num * twoTo (e + 1), den)

/-- The largest `k` with `2 ^ k ≤ num / den`, for positive `num` and `den`. -/
def log2Ratio (num den : Nat) : Int :=
  let k : Int := (num.log2 : Int) - den.log2
  let (n, d) := scaledDown num den k
  if d ≤ n then k else k - 1

namespace Binary64

/-- A mantissa and exponent that fit no finite number are too large. -/
def ofParts (negative : Bool) (m : Nat) (e : Int) : Binary64 :=
  if h : Canonical m e then .finite negative m e h else .infinite negative

def zero (negative : Bool) : Binary64 := ofParts negative 0 (-1074)

/-- The number nearest to `± num / den`; what is too large becomes infinite. -/
def ofRatio (negative : Bool) (num den : Nat) : Binary64 :=
  if num = 0 then zero negative
  else
    let e := max (log2Ratio num den - 52) (-1074)
    let (n, d) := scaledDown num den e
    let m := roundedQuotient n d
    if m = twoTo 53 then ofParts negative (twoTo 52) (e + 1) else ofParts negative m e

def ofInt (n : Int) : Binary64 := ofRatio (n < 0) n.natAbs 1

def ofNat (n : Nat) : Binary64 := ofInt n

/-- The value in units of `2 ^ -1074`, of which every finite number is a whole multiple. -/
def units : Binary64 → Int
  | .finite negative m e _ =>
    let n : Int := (m * twoTo (e + 1074).toNat : Nat)
    if negative then -n else n
  | _ => 0

/-- How many `units` make 1. -/
def unit : Nat := twoTo 1074

def isNegative : Binary64 → Bool
  | .nan => false
  | .infinite negative => negative
  | .finite negative _ _ _ => negative

def isFinite : Binary64 → Bool
  | .finite .. => true
  | _ => false

def isNaN : Binary64 → Bool
  | .nan => true
  | _ => false

/-! ## Comparison -/

/-- How a number stands to the rational `n / unit`; none for `nan`. -/
def compareUnits? : Binary64 → Int → Option Ordering
  | .nan, _ => none
  | .infinite negative, _ => some (if negative then .lt else .gt)
  | x@(.finite ..), n => some (compare x.units n)

/-- A `nan` is not comparable with anything. -/
def compare? (x : Binary64) : Binary64 → Option Ordering
  | .nan => none
  | .infinite negative =>
    match x with
    | .nan => none
    | .infinite sign =>
      some (if negative == sign then .eq else if negative then .gt else .lt)
    | .finite .. => some (if negative then .gt else .lt)
  | y@(.finite ..) => x.compareUnits? y.units

def compareInt? (x : Binary64) (n : Int) : Option Ordering :=
  x.compareUnits? (n * unit)

/-! ## Arithmetic -/

def add : Binary64 → Binary64 → Binary64
  | .nan, _ => .nan
  | _, .nan => .nan
  | .infinite a, .infinite b => if a == b then .infinite a else .nan
  | .infinite a, .finite .. => .infinite a
  | .finite .., .infinite b => .infinite b
  | x@(.finite a ..), y@(.finite b ..) =>
    let n := x.units + y.units
    if n = 0 then zero (a && b) else ofRatio (n < 0) n.natAbs unit

def mul : Binary64 → Binary64 → Binary64
  | .nan, _ => .nan
  | _, .nan => .nan
  | .infinite a, .infinite b => .infinite (a != b)
  | .infinite a, .finite b m .. => if m = 0 then .nan else .infinite (a != b)
  | .finite a m .., .infinite b => if m = 0 then .nan else .infinite (a != b)
  | x@(.finite a ..), y@(.finite b ..) =>
    ofRatio (a != b) (x.units.natAbs * y.units.natAbs) (unit * unit)

def div? : Binary64 → Binary64 → Option Binary64
  | x, y@(.finite b m ..) =>
    if m = 0 then none
    else match x with
      | .nan => some .nan
      | .infinite a => some (.infinite (a != b))
      | .finite a .. => some (ofRatio (a != b) x.units.natAbs y.units.natAbs)
  | .nan, _ => some .nan
  | _, .nan => some .nan
  | .infinite _, .infinite _ => some .nan
  | .finite a .., .infinite b => some (zero (a != b))

def truncate? : Binary64 → Option Int
  | x@(.finite ..) => some (x.units.tdiv unit)
  | _ => none

/-! ## The two readings of a whole number -/

def ofInt? (n : Int) : Option Binary64 :=
  let x := ofInt n
  if x.isFinite then some x else none

/-- The nearest number to a quotient of whole ones, for a positive divisor; none where it is too
large. -/
def ofQuotient? (n : Int) (d : Nat) : Option Binary64 :=
  let x := ofRatio (n < 0) n.natAbs d
  if x.isFinite then some x else none

end Binary64

end CardImport
