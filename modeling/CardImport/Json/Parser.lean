import CardImport.Json.Basic

/-!
# Reading JSON

The grammar of JSON with the words `NaN`, `Infinity` and `-Infinity` for numbers. A number with a
fraction or an exponent is binary, any other is whole, and a whole number may not have more digits
than the limit; nor may arrays and objects be nested beyond theirs. The last value of a field name
counts. Each function returns what it read and the rest of the text; `parse` takes the whole text.
-/

namespace CardImport

inductive JsonError where
  | malformed
  /-- A whole number of that many digits. -/
  | tooManyDigits (count : Nat)
  /-- Too many arrays and objects inside each other; the innermost one that was met. -/
  | tooDeep (innermost : Container)
deriving DecidableEq

namespace Json

abbrev Reading (α : Type) := Except JsonError (α × List Char)

def isSpace (c : Char) : Bool := c == ' ' || c == '\t' || c == '\n' || c == '\r'

def skipSpace (cs : List Char) : List Char := cs.dropWhile isSpace

/-! ## Texts -/

def hexValue? (c : Char) : Option Nat :=
  let n := c.toNat
  if 48 ≤ n && n ≤ 57 then some (n - 48)
  else if 97 ≤ n && n ≤ 102 then some (n - 87)
  else if 65 ≤ n && n ≤ 70 then some (n - 55)
  else none

def unit? (a b c d : Char) : Option Nat := do
  return (((← hexValue? a) * 16 + (← hexValue? b)) * 16 + (← hexValue? c)) * 16 + (← hexValue? d)

def isHighUnit (n : Nat) : Bool := 0xd800 ≤ n && n < 0xdc00

def isLowUnit (n : Nat) : Bool := 0xdc00 ≤ n && n < 0xe000

def pairChar (high low : Nat) : Char :=
  Char.ofNat (0x10000 + (high - 0xd800) * 0x400 + (low - 0xdc00))

/-- A written character, or a UTF-16 unit written as an escape. -/
inductive Piece where
  | char (c : Char)
  | unit (n : Nat)

/-- A unit by itself. Texts are sequences of characters here, so half of a pair that stands alone is
no part of one: it is outside of what is modelled, and read as a replacement character. -/
def unitChar (n : Nat) : Char := if isHighUnit n || isLowUnit n then '\ufffd' else Char.ofNat n

/-- Joins the two units of a pair into one character. -/
def joined : List Piece → List Char
  | [] => []
  | .char c :: rest => c :: joined rest
  | .unit high :: .unit low :: rest =>
    if isHighUnit high && isLowUnit low then pairChar high low :: joined rest
    else unitChar high :: joined (.unit low :: rest)
  | .unit n :: rest => unitChar n :: joined rest

/-- The character that a backslash and this character stand for. -/
def escapedChar? (c : Char) : Option Char :=
  if c = '\x22' ∨ c = '\\' ∨ c = '/' then some c
  else if c = 'b' then some '\x08'
  else if c = 'f' then some '\x0c'
  else if c = 'n' then some '\n'
  else if c = 'r' then some '\r'
  else if c = 't' then some '\t'
  else none

def consPiece (p : Piece) : Reading (List Piece) → Reading (List Piece)
  | .ok (ps, rest) => .ok (p :: ps, rest)
  | .error e => .error e

/-- Reads a text up to its closing quote, the opening one being behind. -/
def readPieces : List Char → Reading (List Piece)
  | [] => .error .malformed
  | '\\' :: 'u' :: a :: b :: c :: d :: rest =>
    match unit? a b c d with
    | some n => consPiece (.unit n) (readPieces rest)
    | none => .error .malformed
  | '\\' :: c :: rest =>
    match escapedChar? c with
    | some x => consPiece (.char x) (readPieces rest)
    | none => .error .malformed
  | c :: rest =>
    if c = '\x22' then .ok ([], rest)
    else if c = '\\' ∨ c.toNat < 0x20 then .error .malformed
    else consPiece (.char c) (readPieces rest)

def readText (cs : List Char) : Reading (List Char) :=
  (readPieces cs).map fun (ps, rest) => (joined ps, rest)

/-! ## Numbers -/

def isAsciiDigit (c : Char) : Bool := 48 ≤ c.toNat && c.toNat ≤ 57

def digitRun (cs : List Char) : List Char × List Char :=
  (cs.takeWhile isAsciiDigit, cs.dropWhile isAsciiDigit)

/-- The digits before the point: a zero alone, or a run that starts with another digit. -/
def wholeRun : List Char → List Char × List Char
  | '0' :: rest => (['0'], rest)
  | cs => digitRun cs

/-- The digits after a point, if a point with a digit follows. -/
def fractionRun : List Char → List Char × List Char
  | '.' :: c :: rest => if isAsciiDigit c then digitRun (c :: rest) else ([], '.' :: c :: rest)
  | cs => ([], cs)

/-- The exponent, if one with a digit follows. -/
def exponentRun? (cs : List Char) : Option (Int × List Char) :=
  match cs with
  | c :: rest =>
    if c = 'e' ∨ c = 'E' then
      let (negative, rest) := Number.splitSign rest
      let (digits, rest) := digitRun rest
      if digits.isEmpty then none
      else
        let n := Nat.ofDigitChars 10 digits 0
        some (if negative then -(n : Int) else n, rest)
    else none
  | [] => none

def readUnsigned (negative : Bool) (cs : List Char) : Reading Json :=
  let (whole, rest) := wholeRun cs
  let (part, rest) := fractionRun rest
  let digits := whole ++ part
  let value := Nat.ofDigitChars 10 digits 0
  if whole.isEmpty then .error .malformed
  else match exponentRun? rest with
    | some (e, rest) =>
      .ok (.float (Binary64.ofScientific negative value digits.length (e - part.length)), rest)
    | none =>
      if !part.isEmpty then
        .ok (.float (Binary64.ofScientific negative value digits.length (-part.length)), rest)
      else if digitLimit < whole.length then .error (.tooManyDigits whole.length)
      else .ok (.int (if negative then -(value : Int) else value), rest)

/-! ## Values -/

/-- Splits off a word that the text starts with. -/
def dropWord? : List Char → List Char → Option (List Char)
  | [], cs => some cs
  | w :: ws, c :: cs => if w = c then dropWord? ws cs else none
  | _ :: _, [] => none

/-- The words that are values. -/
def words : List (List Char × Json) := [
  (['n', 'u', 'l', 'l'], .null),
  (['t', 'r', 'u', 'e'], .bool true),
  (['f', 'a', 'l', 's', 'e'], .bool false),
  (['N', 'a', 'N'], .float .nan),
  (['I', 'n', 'f', 'i', 'n', 'i', 't', 'y'], .float (.infinite false)),
  (['-', 'I', 'n', 'f', 'i', 'n', 'i', 't', 'y'], .float (.infinite true))]

def readWord? (cs : List Char) : Option (Json × List Char) :=
  words.findSome? fun p => (dropWord? p.1 cs).map (p.2, ·)

def readPlain (cs : List Char) : Reading Json :=
  match readWord? cs with
  | some reading => .ok reading
  | none => match cs with
    | '-' :: rest => readUnsigned true rest
    | cs => readUnsigned false cs

mutual

/-- Reads a value that may hold others down to a depth; `fuel` bounds how often the readers call
each other. -/
def readValue : Nat → Nat → List Char → Except JsonError (Json × List Char)
  | 0, _, _ => .error .malformed
  | fuel + 1, depth, cs =>
    match cs with
    | '\x22' :: rest => (readText rest).map fun (s, rest) => (.str (String.ofList s), rest)
    | '[' :: rest =>
      if depth = 0 then .error (.tooDeep .array)
      else match skipSpace rest with
        | ']' :: rest => .ok (.arr [], rest)
        | rest => (readElements fuel (depth - 1) rest).map fun (xs, rest) => (.arr xs, rest)
    | '\x7b' :: rest =>
      if depth = 0 then .error (.tooDeep .object)
      else match skipSpace rest with
        | '\x7d' :: rest => .ok (.obj [], rest)
        | rest =>
          (readFields fuel (depth - 1) rest).map fun (fs, rest) =>
            (.obj (Fields.ofWritten fs), rest)
    | cs => readPlain cs

def readElements : Nat → Nat → List Char → Except JsonError (List Json × List Char)
  | 0, _, _ => .error .malformed
  | fuel + 1, depth, cs => do
    let (x, rest) ← readValue fuel depth cs
    match skipSpace rest with
    | ']' :: rest => return ([x], rest)
    | ',' :: rest =>
      let (xs, rest) ← readElements fuel depth (skipSpace rest)
      return (x :: xs, rest)
    | _ => .error .malformed

def readFields : Nat → Nat → List Char → Except JsonError (List (String × Json) × List Char)
  | 0, _, _ => .error .malformed
  | fuel + 1, depth, cs =>
    match cs with
    | '\x22' :: rest => do
      let (name, rest) ← (readText rest : Except JsonError (List Char × List Char))
      match skipSpace rest with
      | ':' :: rest =>
        let (x, rest) ← readValue fuel depth (skipSpace rest)
        match skipSpace rest with
        | '\x7d' :: rest => return ([(String.ofList name, x)], rest)
        | ',' :: rest =>
          let (fs, rest) ← readFields fuel depth (skipSpace rest)
          return ((String.ofList name, x) :: fs, rest)
        | _ => .error .malformed
      | _ => .error .malformed
    | _ => .error .malformed

end

/-- How deep the reader can go into a text: four levels, and as many more as the rest of the program
leaves of the stack where the text is read. -/
class Nesting where
  spare : Nat

/-- What is left where a store reads its file. -/
instance : Nesting := ⟨976⟩

variable [Nesting]

/-- How many arrays and objects may stand inside each other. -/
def Nesting.limit : Nat := Nesting.spare + 4

/-- Reads a whole text as one value. -/
def parse (cs : List Char) : Except JsonError Json := do
  let (x, rest) ← readValue (2 * cs.length + 2) Nesting.limit (skipSpace cs)
  if (skipSpace rest).isEmpty then return x else .error .malformed

end Json

end CardImport
