/-!
# Encodings

The first bytes of a JSON text tell how it is encoded: it starts with a byte order mark, or else
with ASCII characters, so that the zeros among its first four bytes show the size and the order of
its units.
-/

namespace CardImport.Text

inductive Encoding where
  | utf8
  | utf16 (bigEndian : Bool)
  | utf32 (bigEndian : Bool)
deriving DecidableEq, Repr

namespace Encoding

/-- The marks that a text may start with; the longer ones are looked for first. -/
def marks : List (List UInt8 × Encoding) := [
  ([0x00, 0x00, 0xfe, 0xff], .utf32 true),
  ([0xff, 0xfe, 0x00, 0x00], .utf32 false),
  ([0xfe, 0xff], .utf16 true),
  ([0xff, 0xfe], .utf16 false),
  ([0xef, 0xbb, 0xbf], .utf8)]

/-- The encoding of a text without a mark. -/
def ofZeros : List UInt8 → Encoding
  | a :: b :: c :: d :: _ =>
    if a = 0 then (if b = 0 then .utf32 true else .utf16 true)
    else if b = 0 then (if c = 0 && d = 0 then .utf32 false else .utf16 false)
    else .utf8
  | [a, b] => if a = 0 then .utf16 true else if b = 0 then .utf16 false else .utf8
  | _ => .utf8

def detect (bytes : List UInt8) : Encoding × Nat :=
  match marks.find? (·.1.isPrefixOf bytes) with
  | some (mark, encoding) => (encoding, mark.length)
  | none => (ofZeros bytes, 0)

end Encoding

/-! ## Decoding -/

def char? (n : Nat) : Option Char := if n.isValidChar then some (Char.ofNat n) else none

/-- The units of two bytes; none if a byte is left over. -/
def pairs? (bigEndian : Bool) : List UInt8 → Option (List Nat)
  | [] => some []
  | [_] => none
  | a :: b :: rest => do
    let (high, low) := if bigEndian then (a, b) else (b, a)
    return (high.toNat * 0x100 + low.toNat) :: (← pairs? bigEndian rest)

/-- The characters of UTF-16 units; none if half of a pair stands alone. -/
def charsOfUnits? : List Nat → Option (List Char)
  | [] => some []
  | high :: rest =>
    if 0xd800 ≤ high && high < 0xdc00 then
      match rest with
      | low :: rest => do
        if 0xdc00 ≤ low && low < 0xe000 then
          let c ← char? (0x10000 + (high - 0xd800) * 0x400 + (low - 0xdc00))
          return c :: (← charsOfUnits? rest)
        else none
      | [] => none
    else do
      let c ← char? high
      return c :: (← charsOfUnits? rest)

/-- The characters of numbers of four bytes. -/
def charsOfQuads? (bigEndian : Bool) : List UInt8 → Option (List Char)
  | [] => some []
  | a :: b :: c :: d :: rest => do
    let bytes := if bigEndian then [a, b, c, d] else [d, c, b, a]
    let x ← char? (bytes.foldl (fun n byte => n * 0x100 + byte.toNat) 0)
    return x :: (← charsOfQuads? bigEndian rest)
  | _ => none

/-- The characters of a text in one of the encodings; none if a byte does not fit. -/
def decode? (bytes : ByteArray) : Option (List Char) :=
  let (encoding, mark) := Encoding.detect (bytes.extract 0 4).toList
  let text := bytes.extract mark bytes.size
  match encoding with
  | .utf8 => (String.fromUTF8? text).map String.toList
  | .utf16 bigEndian => (pairs? bigEndian text.toList).bind charsOfUnits?
  | .utf32 bigEndian => charsOfQuads? bigEndian text.toList

end CardImport.Text
