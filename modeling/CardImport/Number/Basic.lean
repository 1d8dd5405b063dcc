import CardImport.Number.Reader

/-!
# Numbers of a setting

A number is whole or binary, and keeps which of the two it is. A truth value counts as 1 or 0 and
keeps its own spelling. Whole numbers are compared with binary ones exactly.
-/

namespace CardImport

inductive Number where
  | flag (b : Bool)
  | whole (n : Int)
  | real (x : Binary64)
deriving DecidableEq

namespace Number

def ofFlag (b : Bool) : Int := if b then 1 else 0

def whole? : Number → Option Int
  | .flag b => some (ofFlag b)
  | .whole n => some n
  | .real _ => none

def text : Number → String
  | .flag b => if b then "True" else "False"
  | .whole n => toString n
  | .real x => x.text

def compare? : Number → Number → Option Ordering
  | .real x, .real y => x.compare? y
  | .real x, .whole n => x.compareInt? n
  | .real x, .flag b => x.compareInt? (ofFlag b)
  | .whole n, .real x => (x.compareInt? n).map Ordering.swap
  | .flag b, .real x => (x.compareInt? (ofFlag b)).map Ordering.swap
  | .whole m, .whole n => some (compare m n)
  | .whole m, .flag c => some (compare m (ofFlag c))
  | .flag b, .whole n => some (compare (ofFlag b) n)
  | .flag b, .flag c => some (compare (ofFlag b) (ofFlag c))

def lt (a b : Number) : Bool := compare? a b == some .lt

def le (a b : Number) : Bool :=
  match compare? a b with
  | some .lt | some .eq => true
  | _ => false

def eq (a b : Number) : Bool := compare? a b == some .eq

def toBinary : Number → Except NumberError Binary64
  | .real x => .ok x
  | .whole n => match Binary64.ofInt? n with
    | some x => .ok x
    | none => .error .tooLargeForBinary
  | .flag b => .ok (Binary64.ofInt (ofFlag b))

def mul (a b : Number) : Except NumberError Number :=
  match a.whole?, b.whole? with
  | some m, some n => .ok (.whole (m * n))
  | _, _ => do return .real (Binary64.mul (← a.toBinary) (← b.toBinary))

/-- The binary quotient by a positive whole number. A quotient of whole numbers is rounded once. -/
def divNat (a : Number) (d : Nat) : Except NumberError Binary64 :=
  match a with
  | .real x => .ok ((x.div? (Binary64.ofNat d)).getD .nan)
  | .flag b => .ok (Binary64.ofRatio false (ofFlag b).natAbs d)
  | .whole n => match Binary64.ofQuotient? n d with
    | some x => .ok x
    | none => .error .quotientTooLarge

def div (a b : Number) : Except NumberError Binary64 :=
  match a.whole?, b.whole? with
  | some m, some n => divNat (.whole m) n.toNat
  | _, _ => do
    let x ← a.toBinary
    let y ← b.toBinary
    return (x.div? y).getD .nan

/-- The whole part of a binary number, toward zero. -/
def wholeOfBinary (x : Binary64) : Except NumberError Int :=
  match x.truncate? with
  | some n => .ok n
  | none => .error (if x.isNaN then .wholeOfNaN else .wholeOfInfinity)

def toWhole : Number → Except NumberError Int
  | .real x => wholeOfBinary x
  | .whole n => .ok n
  | .flag b => .ok (ofFlag b)

end Number

end CardImport
