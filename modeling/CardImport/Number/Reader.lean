import CardImport.Number.Decimal
import CardImport.Number.Error
import CardImport.Text.Blank
import CardImport.Text.Digit

/-!
# Reading numbers from text

Digits of any script count, and single underscores may stand between digits. White space around a
number is skipped, except the four ASCII separators U+001C to U+001F.
-/

namespace CardImport.Number

open CardImport.Text

def isMargin (c : Char) : Bool := isBlank c && !(0x1c ≤ c.toNat && c.toNat ≤ 0x1f)

def splitSign : List Char → Bool × List Char
  | '-' :: cs => (true, cs)
  | '+' :: cs => (false, cs)
  | cs => (false, cs)

/-- Whether each underscore stands between two digits, given the character before. -/
def underscoresFit : Char → List Char → Bool
  | before, [] => before != '_'
  | before, c :: cs =>
    (if c = '_' then isDigit before
     else if before = '_' then isDigit c
     else true) && underscoresFit c cs

/-- The decimal text of a whole number; refused when it has more digits than the limit. -/
def writeWhole (n : Int) : Except NumberError String :=
  if digitLimit < (Nat.toDigits 10 n.natAbs).length then .error .tooLongToWrite
  else .ok (toString n)

/-- Reads a whole number. The number of digits is checked before what follows them is looked
at. -/
def readWhole (text : List Char) : Except NumberError Int :=
  let (negative, cs) := splitSign (trim isMargin text)
  let run := cs.takeWhile fun c => isDigit c || c = '_'
  let digits := run.filter isDigit
  if !underscoresFit ' ' run then .error (.notWhole text)
  else if digitLimit < digits.length then .error (.tooManyDigits digits.length)
  else if digits.isEmpty || run.length < cs.length then .error (.notWhole text)
  else .ok (if negative then -(digitsValue digits : Int) else digitsValue digits)

/-! ## Numbers with a fraction or an exponent -/

/-- A digit of any script as an ASCII digit. -/
def plainDigit (c : Char) : Char :=
  match digitValue? c with
  | some n => Nat.digitChar n
  | none => c

def readExponent? : List Char → Option Int
  | [] => some 0
  | c :: cs =>
    if c = 'e' ∨ c = 'E' then
      let (negative, ds) := splitSign cs
      if ds.isEmpty || !ds.all isDigit then none
      else some (if negative then -(digitsValue ds : Int) else digitsValue ds)
    else none

/-- A number without sign: digits, with a point before, among or after them, and an exponent. -/
def readUnsigned? (negative : Bool) (cs : List Char) : Option Binary64 :=
  let whole := cs.takeWhile isDigit
  let rest := cs.dropWhile isDigit
  let (part, rest) := match rest with
    | '.' :: r => (r.takeWhile isDigit, r.dropWhile isDigit)
    | r => ([], r)
  let digits := whole ++ part
  if digits.isEmpty then none
  else (readExponent? rest).map fun e =>
    Binary64.ofScientific negative (digitsValue digits) digits.length (e - part.length)

/-- The words for what is no finite number, in any case. -/
def readWord? (negative : Bool) (cs : List Char) : Option Binary64 :=
  let word := String.ofList (cs.map Char.toLower)
  if word = "inf" ∨ word = "infinity" then some (.infinite negative)
  else if word = "nan" then some .nan
  else none

def readBinary (text : List Char) : Except NumberError Binary64 :=
  let cs := (trim isMargin text).map plainDigit
  let (negative, body) := splitSign (cs.filter (· ≠ '_'))
  match readWord? negative body <|> readUnsigned? negative body with
  | some x => if underscoresFit ' ' cs then .ok x else .error (.notNumber text)
  | none => .error (.notNumber text)

end CardImport.Number
