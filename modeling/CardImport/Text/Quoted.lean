import CardImport.Text.Printable

/-!
# Quoted text

A text between quotes, as it is shown inside messages. Single quotes stand around it, unless it
holds a single quote and no double one. The quote in use, the backslash and the characters that
are not printable are escaped.
-/

namespace CardImport.Text

def lowerHexDigit (n : Nat) : Char := (Nat.digitChar n)

/-- `n` in `width` hexadecimal digits, the lowest ones if it has more. -/
def hexChars : Nat → Nat → List Char
  | 0, _ => []
  | width + 1, n => hexChars width (n / 16) ++ [lowerHexDigit (n % 16)]

def quoteFor (cs : List Char) : Char :=
  if cs.contains '\x27' && !cs.contains '\x22' then '\x22' else '\x27'

def escaped (quote c : Char) : List Char :=
  if c = quote ∨ c = '\\' then ['\\', c]
  else if c = '\n' then ['\\', 'n']
  else if c = '\r' then ['\\', 'r']
  else if c = '\t' then ['\\', 't']
  else if isPrintable c then [c]
  else if c.toNat < 0x100 then '\\' :: 'x' :: hexChars 2 c.toNat
  else if c.toNat < 0x10000 then '\\' :: 'u' :: hexChars 4 c.toNat
  else '\\' :: 'U' :: hexChars 8 c.toNat

def quotedChars (cs : List Char) : List Char :=
  let quote := quoteFor cs
  quote :: cs.flatMap (escaped quote) ++ [quote]

def quoted (s : String) : String := String.ofList (quotedChars s.toList)

end CardImport.Text
