/-!
# Percent-encoding

The bytes of a text in UTF-8, each one as itself if it is a letter, a digit or one of `-._~`, and
else as a percent sign and two hexadecimal digits.
-/

namespace CardImport.Text

def isUnreserved (n : Nat) : Bool :=
  (48 ≤ n && n ≤ 57) || (65 ≤ n && n ≤ 90) || (97 ≤ n && n ≤ 122) ||
    n == 45 || n == 46 || n == 95 || n == 126

def upperHexDigit (n : Nat) : Char := Char.ofNat (if n < 10 then 48 + n else 55 + n)

def percentByte (b : UInt8) : List Char :=
  let n := b.toNat
  if isUnreserved n then [Char.ofNat n] else ['%', upperHexDigit (n / 16), upperHexDigit (n % 16)]

def percentEncode (bytes : List UInt8) : List Char := bytes.flatMap percentByte

def utf8Bytes (s : String) : List UInt8 := s.toUTF8.toList

/-! ## Reading back -/

def hexDigitValue? (c : Char) : Option Nat :=
  let n := c.toNat
  if 48 ≤ n && n ≤ 57 then some (n - 48)
  else if 65 ≤ n && n ≤ 70 then some (n - 55)
  else if 97 ≤ n && n ≤ 102 then some (n - 87)
  else none

/-- The bytes of a percent-encoded text; none if an escape is broken or a character is not
ASCII. -/
def percentDecode? : List Char → Option (List UInt8)
  | [] => some []
  | '%' :: a :: b :: rest => do
    let high ← hexDigitValue? a
    let low ← hexDigitValue? b
    return UInt8.ofNat (high * 16 + low) :: (← percentDecode? rest)
  | c :: rest =>
    if c = '%' ∨ 0x80 ≤ c.toNat then none
    else (percentDecode? rest).map (UInt8.ofNat c.toNat :: ·)

end CardImport.Text
