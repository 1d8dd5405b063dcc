import CardImport.Number.Binary64

/-!
# Decimal text of binary numbers

`Binary64.shortest` finds the decimal with the fewest digits that reads back as the number, the
nearest such one, and `Binary64.text` writes it. `Binary64.fixed` writes a given number of places
of the exact binary value.
-/

namespace CardImport

/-- The decimal `digits * 10 ^ exponent`. -/
structure Decimal where
  digits : Nat
  exponent : Int
deriving DecidableEq, Repr

namespace Binary64

/-- The number nearest to `± d`. The exponent is taken as it is, so it has to be small enough to
compute with; `ofScientific` cuts it. -/
def ofDecimal (negative : Bool) (d : Decimal) : Binary64 :=
  match d.exponent with
  | .ofNat k => ofRatio negative (d.digits * tenTo k) 1
  | .negSucc k => ofRatio negative d.digits (tenTo (k + 1))

/-- The number nearest to `± digits * 10 ^ exponent` for `count` written digits. Far above the
largest number the answer is infinite, far below the smallest it is zero. -/
def ofScientific (negative : Bool) (digits count : Nat) (exponent : Int) : Binary64 :=
  if digits = 0 then zero negative
  else if 400 < (Nat.toDigits 10 digits).length + exponent then .infinite negative
  else if count + exponent < -400 then zero negative
  else ofDecimal negative ⟨digits, exponent⟩

/-! ## Fewest digits -/

/-- Numerator and denominator of the absolute value. -/
def ratio : Binary64 → Nat × Nat
  | .finite _ m (.ofNat e) _ => (m * twoTo e, 1)
  | .finite _ m (.negSucc e) _ => (m, twoTo (e + 1))
  | _ => (0, 1)

def shifted (num den : Nat) : Int → Nat × Nat
  | .ofNat e => (num, den * tenTo e)
  | .negSucc e => (num * tenTo (e + 1), den)

/-- The largest `k` with `10 ^ k ≤ num / den`, for positive `num` and `den`. The estimate from the
binary logarithm is off by one at most. -/
def log10Ratio (num den : Nat) : Int :=
  let guess := log2Ratio num den * 30103 / 100000
  let (n, d) := shifted num den guess
  if n < d then guess - 1
  else if d * 10 ≤ n then guess + 1
  else guess

/-- The decimal of `count` digits nearest to the number among the two neighbours of the number
that read back as it, a tie going to the even last digit. -/
def neighbour? (x : Binary64) (lead : Int) (count : Nat) : Option Decimal :=
  let e := lead - count + 1
  let (num, den) := x.ratio
  let (n, d) := shifted num den e
  let below : Decimal := ⟨n / d, e⟩
  let above : Decimal := ⟨n / d + 1, e⟩
  let reads (c : Decimal) : Bool := ofDecimal x.isNegative c == x
  match reads below, reads above with
  | false, false => none
  | true, false => some below
  | false, true => some above
  | true, true => some ⟨roundedQuotient n d, e⟩

/-- Drops zeros at the end of the digits; `fuel` bounds how many. -/
def trimmed : Nat → Decimal → Decimal
  | 0, c => c
  | fuel + 1, c =>
    if c.digits % 10 = 0 ∧ c.digits ≠ 0 then trimmed fuel ⟨c.digits / 10, c.exponent + 1⟩ else c

/-- The decimal with the fewest digits that reads back as the number; 17 digits always do. -/
def shortest (x : Binary64) : Decimal :=
  let (num, den) := x.ratio
  if num = 0 then ⟨0, 0⟩
  else
    let lead := log10Ratio num den
    let found := (List.range 17).findSome? fun n => neighbour? x lead (n + 1)
    trimmed 17 (found.getD ⟨0, 0⟩)

/-! ## Layout -/

/-- Where the text of a number turns exponential: below the first and from the second power of
ten on. Both ends suit all numbers that this program writes. -/
def positionalRange : Int × Int := (-4, 16)

def zeros (n : Nat) : List Char := List.replicate n '0'

/-- The digits with a point after the first `point` of them; both sides show a digit. -/
def positional (digits : List Char) (point : Int) : List Char :=
  match point with
  | .negSucc n => '0' :: '.' :: zeros (n + 1) ++ digits
  | .ofNat 0 => '0' :: '.' :: digits
  | .ofNat n =>
    if digits.length ≤ n then digits ++ zeros (n - digits.length) ++ ['.', '0']
    else digits.take n ++ '.' :: digits.drop n

def exponential (digits : List Char) (power : Int) : List Char :=
  let exponent := Nat.toDigits 10 power.natAbs
  let front := match digits with
    | d :: rest@(_ :: _) => d :: '.' :: rest
    | _ => digits
  front ++ 'e' :: (if power < 0 then '-' else '+') ::
    (if exponent.length < 2 then '0' :: exponent else exponent)

/-- The text of `d`, in positional form within `positionalRange`. -/
def layout (d : Decimal) : List Char :=
  let digits := Nat.toDigits 10 d.digits
  let power := digits.length + d.exponent - 1
  if positionalRange.1 ≤ power ∧ power < positionalRange.2 then positional digits (power + 1)
  else exponential digits power

def signed (negative : Bool) (cs : List Char) : List Char :=
  if negative then '-' :: cs else cs

def textChars : Binary64 → List Char
  | .nan => ['n', 'a', 'n']
  | .infinite negative => signed negative ['i', 'n', 'f']
  | x@(.finite negative ..) => signed negative (layout x.shortest)

/-- The fewest digits that read back, with a point or an exponent. -/
def text (x : Binary64) : String := String.ofList x.textChars

/-! ## Fixed places -/

/-- The exact value in units of `10 ^ -places`, a tie to even. -/
def roundedPlaces (x : Binary64) (places : Nat) : Nat :=
  let (num, den) := x.ratio
  roundedQuotient (num * tenTo places) den

def padLeft (width : Nat) (cs : List Char) : List Char := zeros (width - cs.length) ++ cs

/-- The number with `places` digits after the point. The sign stays on a zero that was rounded. -/
def fixedChars (x : Binary64) (places : Nat) : List Char :=
  match x with
  | .nan => ['n', 'a', 'n']
  | .infinite negative => signed negative ['i', 'n', 'f']
  | .finite negative .. =>
    let n := x.roundedPlaces places
    let whole := Nat.toDigits 10 (n / tenTo places)
    let part := padLeft places (Nat.toDigits 10 (n % tenTo places))
    signed negative (if places = 0 then whole else whole ++ '.' :: part)

def fixed (x : Binary64) (places : Nat) : String := String.ofList (x.fixedChars places)

end Binary64

end CardImport
