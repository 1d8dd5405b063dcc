import CardImport.Timestamp.Basic
import CardImport.Journal
import CardImport.Text.Blank
import CardImport.Text.Digit

/-!
# Reading timestamps

The date is `YYYY-MM-DD`, `YYYYMMDD` or a week date, one character of any kind separates the time,
and the time is `HH`, `HH:MM` or `HH:MM:SS` with or without colons, then a fraction of a second
and an offset. Lengths count UTF-8 bytes.

A few malformed texts are read too: a colon may stand before a fraction, and before the offset the
time may end in one more ASCII character, or in more than six digits of a fraction and anything.
-/

namespace CardImport.Timestamp

/-! ## Parts -/

def asciiDigit? (c : Char) : Option Nat :=
  if 48 ≤ c.toNat && c.toNat ≤ 57 then some (c.toNat - 48) else none

def takeDigits : Nat → Nat → List Char → Option (Nat × List Char)
  | 0, acc, cs => some (acc, cs)
  | _ + 1, _, [] => none
  | n + 1, acc, c :: cs =>
    match asciiDigit? c with
    | some d => takeDigits n (acc * 10 + d) cs
    | none => none

/-- A character that is not ASCII, once for each of its bytes; only their number matters. -/
def units (cs : List Char) : List Char :=
  cs.flatMap fun c => if c.toNat < 0x80 then [c] else List.replicate c.utf8Size '\ufffd'

def charAt (cs : List Char) (i : Nat) : Char := cs.getD i '\x00'

def isDigitAt (cs : List Char) (i : Nat) : Bool := (asciiDigit? (charAt cs i)).isSome

/-! ## Date -/

/-- Where the date ends. A week without a day and one with a day are told apart by what follows:
a hyphen before a digit starts the time, and times have an even number of digits. -/
def dateEnd (cs : List Char) : Nat :=
  if cs.length = 7 then 7
  else if charAt cs 4 = '-' then
    if charAt cs 5 = 'W' then
      if charAt cs 8 = '-' then
        if isDigitAt cs 10 then 8 else 10
      else 8
    else 10
  else if charAt cs 4 = 'W' then
    let last := 7 + ((cs.drop 7).takeWhile fun c => (asciiDigit? c).isSome).length
    if last < 9 then last
    else if last % 2 = 0 then 7
    else 8
  else 8

def dropHyphen? (asked : Bool) (cs : List Char) : Option (List Char) :=
  if asked then
    match cs with
    | '-' :: rest => some rest
    | _ => none
  else some cs

def readDate? (last : Nat) (cs : List Char) : Option (Nat × Nat × Nat) := do
  let (year, rest) ← takeDigits 4 0 cs
  let hyphens := rest.head? == some '-'
  let rest := if hyphens then rest.tail else rest
  match rest with
  | 'W' :: rest =>
    let (week, rest) ← takeDigits 2 0 rest
    if (if hyphens then 8 else 7) < last then
      let (day, _) ← takeDigits 1 0 (← dropHyphen? hyphens rest)
      dateOfWeek? year week day
    else dateOfWeek? year week 1
  | rest =>
    let (month, rest) ← takeDigits 2 0 rest
    let (day, _) ← takeDigits 2 0 (← dropHyphen? hyphens rest)
    return (year, month, day)

/-! ## Time -/

structure Clock where
  hour : Nat := 0
  minute : Nat := 0
  second : Nat := 0
  microsecond : Nat := 0

/-- Whether something is left over; a NUL ends the text. -/
def isLeft : List Char → Bool
  | [] => false
  | c :: _ => c != '\x00'

/-- A fraction of a second of any number of digits, cut to six; then what is left over. -/
def readFraction? (cs : List Char) : Option (Nat × Bool) := do
  let count := min 6 cs.length
  let (n, rest) ← takeDigits count 0 cs
  return (n * tenTo (6 - count), isLeft (rest.dropWhile fun c => (asciiDigit? c).isSome))

/-- What follows two digits of a time. -/
inductive Following where
  | nothing (left : Bool)
  | fraction (rest : List Char)
  | digits (rest : List Char)

/-- Looks at the character after two digits; `colons` tells whether the digits of this time are
separated, once that is known. -/
def following? (colons : Option Bool) (cs : List Char) : Option (Bool × Following) :=
  let c := cs.headD '\x00'
  let colons := colons.getD (c == ':')
  match cs with
  | [] => some (colons, .nothing false)
  | [c] => some (colons, .nothing (c != '\x00'))
  | c :: rest =>
    if colons && c == ':' then some (colons, .digits rest)
    else if c == '.' || c == ',' then some (colons, .fraction rest)
    else if !colons then some (colons, .digits (c :: rest))
    else none

def readClock? (cs : List Char) : Option (Clock × Bool) := do
  let (hour, rest) ← takeDigits 2 0 cs
  let clock : Clock := { hour }
  match ← following? none rest with
  | (_, .nothing left) => return (clock, left)
  | (_, .fraction rest) =>
    let (microsecond, left) ← readFraction? rest
    return ({ clock with microsecond }, left)
  | (colons, .digits rest) =>
    let (minute, rest) ← takeDigits 2 0 rest
    let clock := { clock with minute }
    match ← following? (some colons) rest with
    | (_, .nothing left) => return (clock, left)
    | (_, .fraction rest) =>
      let (microsecond, left) ← readFraction? rest
      return ({ clock with microsecond }, left)
    | (_, .digits rest) =>
      let (second, rest) ← takeDigits 2 0 rest
      let clock := { clock with second }
      match ← following? (some colons) rest with
      | (_, .nothing left) => return (clock, left)
      | (_, .fraction rest) | (_, .digits rest) =>
        let (microsecond, left) ← readFraction? rest
        return ({ clock with microsecond }, left)

/-- The offset of a clock reading, in microseconds. Less than a second is none at all. -/
def offsetOf (negative : Bool) (c : Clock) : Int :=
  let seconds := c.hour * 3600 + c.minute * 60 + c.second
  let n : Int := if seconds = 0 then 0 else seconds * 1000000 + c.microsecond
  if negative then -n else n

def isOffsetSign (c : Char) : Bool := c == '+' || c == '-' || c == 'Z'

def readTime? (cs : List Char) : Option (Clock × Option Int) := do
  let (clock, left) ← readClock? (cs.takeWhile fun c => !isOffsetSign c)
  match cs.dropWhile fun c => !isOffsetSign c with
  | [] => if left then none else return (clock, none)
  | 'Z' :: rest => if isLeft rest then none else return (clock, some 0)
  | sign :: rest =>
    let (distance, left) ← readClock? rest
    if left then none else return (clock, some (offsetOf (sign == '-') distance))

/-! ## Date and time -/

/-- Reads a whole timestamp; none if a part is out of range. -/
def read? (cs : List Char) : Option Timestamp := do
  let bytes := units cs
  let last := dateEnd bytes
  let (year, month, day) ← readDate? last bytes
  let (clock, offset) ←
    if last < bytes.length then readTime? (units (cs.drop (last + 1))) else some ({}, none)
  let t : Timestamp :=
    ⟨year, month, day, clock.hour, clock.minute, clock.second, clock.microsecond, offset⟩
  if t.IsValid then return t else none

/-! ## Timestamps of the server -/

/-- Keeps six digits after each point; `seen` counts the digits behind the last point. -/
def cutFractions : Option Nat → List Char → List Char
  | _, [] => []
  | seen, c :: cs =>
    if c = '.' then c :: cutFractions (some 0) cs
    else if Text.isDigit c then
      match seen with
      | none => c :: cutFractions none cs
      | some n => if n < 6 then c :: cutFractions (some (n + 1)) cs else cutFractions seen cs
    else c :: cutFractions none cs

/-- A `Z` at the end as an offset in digits. -/
def expandZulu (cs : List Char) : List Char :=
  if cs.getLast? = some 'Z' then cs.dropLast ++ ['+', '0', '0', ':', '0', '0'] else cs

def normalized (cs : List Char) : List Char :=
  expandZulu (cutFractions none (Text.strip cs))

/-- The timestamp of a text from the server. Year 1 stands for no time at all. -/
def ofText? (s : String) : Option Timestamp :=
  (read? (normalized s.toList)).filter fun t => 1 < t.year

/-- The timestamp of a field. What counts as no is no time, and a text that cannot be read is
noted and taken for none. -/
def decode (value : Json) : Noted (Option Timestamp) :=
  if !value.truthy then return none
  else match value with
    | .str s => do
      if (read? (normalized s.toList)).isNone then
        Noted.write .warning .decoding ("Ignoring unparseable timestamp: " ++ Text.quoted s)
      return ofText? s
    | _ => throw .noAttribute

end CardImport.Timestamp
