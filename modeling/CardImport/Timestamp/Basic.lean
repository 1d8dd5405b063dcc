/-!
# Points in time

A date and a time of day, with the distance from universal time if it is known. The written form
is `YYYY-MM-DDTHH:MM:SS`, with six digits of a second if they are not all zero, and then the
offset.
-/

namespace CardImport

/-! ## Calendar -/

def isLeapYear (year : Nat) : Bool := year % 4 == 0 && (year % 100 != 0 || year % 400 == 0)

def daysInMonth (year month : Nat) : Nat :=
  match month with
  | 2 => if isLeapYear year then 29 else 28
  | 4 | 6 | 9 | 11 => 30
  | _ => 31

def daysInYear (year : Nat) : Nat := if isLeapYear year then 366 else 365

/-- The number of days before the first day of a year, counted from year 1. -/
def daysBeforeYear (year : Nat) : Nat :=
  let y := year - 1
  y * 365 + y / 4 - y / 100 + y / 400

def firstWeekday (year : Nat) : Nat := daysBeforeYear year % 7

/-- Month and day of a day of the year, counted from 0, looked for from a month on. -/
def monthDay (year : Nat) : Nat → Nat → Nat → Nat × Nat
  | 0, month, day => (month, day + 1)
  | fuel + 1, month, day =>
    if day < daysInMonth year month then (month, day + 1)
    else monthDay year fuel (month + 1) (day - daysInMonth year month)

def dateAfter (year : Nat) (days : Int) : Nat × Nat × Nat :=
  let dateOn (year day : Nat) := (year, monthDay year 11 1 day)
  if days < 0 then dateOn (year - 1) (days + daysInYear (year - 1)).toNat
  else if (daysInYear year : Int) ≤ days then dateOn (year + 1) (days - daysInYear year).toNat
  else dateOn year days.toNat

/-- The date of a day of a week; the first week of a year holds its first Thursday. -/
def dateOfWeek? (year week day : Nat) : Option (Nat × Nat × Nat) :=
  let first := firstWeekday year
  let weeks := if first = 3 ∨ (first = 2 ∧ isLeapYear year) then 53 else 52
  if year = 0 ∨ week = 0 ∨ weeks < week ∨ day = 0 ∨ 7 < day then none
  else
    let monday : Int := if 3 < first then 7 - first else -first
    some (dateAfter year (monday + ((week - 1) * 7 + (day - 1) : Nat)))

/-! ## Timestamps -/

structure Timestamp where
  year : Nat
  month : Nat
  day : Nat
  hour : Nat
  minute : Nat
  second : Nat
  microsecond : Nat
  /-- Microseconds ahead of universal time, if known. -/
  offset : Option Int
deriving DecidableEq, Repr

def microsecondsPerDay : Nat := 86400000000

namespace Timestamp

def IsValid (t : Timestamp) : Prop :=
  1 ≤ t.year ∧ t.year ≤ 9999 ∧ 1 ≤ t.month ∧ t.month ≤ 12 ∧
  1 ≤ t.day ∧ t.day ≤ daysInMonth t.year t.month ∧
  t.hour < 24 ∧ t.minute < 60 ∧ t.second < 60 ∧ t.microsecond < 1000000 ∧
  ∀ z ∈ t.offset, z.natAbs < microsecondsPerDay

instance (t : Timestamp) : Decidable t.IsValid := by
  unfold IsValid
  cases t.offset <;> infer_instance

/-! ## Written form -/

/-- A number in `width` decimal digits, the lowest ones if it has more. -/
def padded : Nat → Nat → List Char
  | 0, _ => []
  | width + 1, n => padded width (n / 10) ++ [Nat.digitChar (n % 10)]

def clockChars (hour minute second : Nat) : List Char :=
  padded 2 hour ++ ':' :: padded 2 minute ++ ':' :: padded 2 second

def fractionChars (microsecond : Nat) : List Char :=
  if microsecond = 0 then [] else '.' :: padded 6 microsecond

/-- `+HH:MM`, with seconds and their fraction only where they are not zero. -/
def offsetChars (z : Int) : List Char :=
  let n := z.natAbs
  let micros := n % 1000000
  let seconds := n / 1000000
  (if z < 0 then '-' else '+') ::
    (if seconds % 60 = 0 ∧ micros = 0 then
      padded 2 (seconds / 3600) ++ ':' :: padded 2 (seconds / 60 % 60)
    else
      clockChars (seconds / 3600) (seconds / 60 % 60) (seconds % 60) ++ fractionChars micros)

def chars (t : Timestamp) : List Char :=
  padded 4 t.year ++ '-' :: padded 2 t.month ++ '-' :: padded 2 t.day ++
    'T' :: clockChars t.hour t.minute t.second ++ fractionChars t.microsecond ++
    (match t.offset with
      | none => []
      | some z => offsetChars z)

def text (t : Timestamp) : String := String.ofList t.chars

def clockText (t : Timestamp) : String := String.ofList (clockChars t.hour t.minute t.second)

end Timestamp

end CardImport
